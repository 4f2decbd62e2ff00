import AlienConnection.Acl.Meaning
import AlienConnection.Library.PrefixTree
import AlienConnection.Net.ImmutableSubnet
import AlienConnection.Native.Socks5

/-!
# Access control in the native client

The client that the app starts loads a list of rules from a file and asks for every
connection whether it goes through the server. Rules are kept apart by kind: networks, names,
a tree of domains, and regular expressions. Some regular expressions are replaced by a name or
a domain. A rule list is compared with the rules of its lines taken one by one.
-/

namespace AlienConnection.Native

open Library
open Net (Subnet)
open Acl (Target)

abbrev IpAddr := Net.Address

/-- What loading and checking use of other crates. A set of patterns is compiled as a whole;
the result is the error. -/
structure AclCrates where
  parseIpNet : Text → Option Subnet
  parseIpAddr : Text → Option IpAddr
  compile : List Text → Option Text
  isMatch : Text → Text → Bool
  domainToAscii : Text → Option Text

/-! ## Addresses and networks -/

namespace IpAddr

def isV4 (ip : IpAddr) : Bool := ip.bytes.length = 4

def mappedPrefix : List (BitVec 8) := List.replicate 10 0 ++ [255, 255]

def toIpv6Mapped (ip : IpAddr) : IpAddr :=
  if four : ip.bytes.length = 4 then
    ⟨mappedPrefix ++ ip.bytes, Or.inr (by rw [List.length_append, four]; rfl)⟩
  else ip

def toIpv4Mapped (ip : IpAddr) : Option IpAddr :=
  if sixteen : ip.bytes.length = 16 then
    if ip.bytes.take 12 = mappedPrefix then
      some ⟨ip.bytes.drop 12, Or.inl (by rw [List.length_drop, sixteen])⟩
    else none
  else none

end IpAddr

def netContains (net : Subnet) (ip : IpAddr) : Bool :=
  net.address.bytes.length = ip.bytes.length &&
    (Subnet.bits net.address.bytes).take net.prefixSize ==
      (Subnet.bits ip.bytes).take net.prefixSize

def hostNet (ip : IpAddr) : Subnet := ⟨ip, 8 * ip.bytes.length, Nat.le_refl _⟩

/-- A network, or a single address, which is a network, too. -/
def AclCrates.parseNet (crates : AclCrates) (text : Text) : Option Subnet :=
  match crates.parseIpNet text with
  | some net => some net
  | none => (crates.parseIpAddr text).map hostNet

/-! ## Rules -/

/-- Networks are merged when they are put together, which is left out. -/
structure Rules where
  ipv4 : List Subnet
  ipv6 : List Subnet
  ruleRegex : List Text
  ruleSet : List Text
  ruleTree : List (Text × PrefixTree Text)

def trimDots (host : Text) : Text := host.rdropWhile (· = '.')

def labels (name : Text) : List Text := (name.splitOn '.').reverse

namespace Rules

def checkIpMatched (rules : Rules) (ip : IpAddr) : Bool :=
  if ip.isV4 then
    rules.ipv4.any (netContains · ip) || rules.ipv6.any (netContains · ip.toIpv6Mapped)
  else
    rules.ipv6.any (netContains · ip) ||
      match ip.toIpv4Mapped with
      | some mapped => rules.ipv4.any (netContains · mapped)
      | none => false

def checkHostMatched (crates : AclCrates) (rules : Rules) (host : Text) : Bool :=
  let host := trimDots host
  rules.ruleSet.contains host || PrefixTree.contains (labels host) rules.ruleTree ||
    rules.ruleRegex.any (crates.isMatch · host)

def isIpEmpty (rules : Rules) : Bool := rules.ipv4.isEmpty && rules.ipv6.isEmpty

def isHostEmpty (rules : Rules) : Bool :=
  rules.ruleSet.isEmpty && rules.ruleTree.isEmpty && rules.ruleRegex.isEmpty

end Rules

def isAscii (text : Text) : Bool := text.all (·.toNat < 128)

def toAsciiLowercase (text : Text) : Text := text.map Char.toLower

/-! ## Regular expressions that are names -/

/-- `[\w-]` without Unicode. -/
def isWordOrHyphen (char : Char) : Bool := char.isAlphanum || char = '_' || char = '-'

/-- The rest of `(?:[\w-]+(?:\\\.)?)+` behind a character of a word, with every `\.` replaced
by a dot. -/
def domainRest : Text → Option Text
  | [] => some []
  | ['\\', '.'] => some ['.']
  | '\\' :: '.' :: char :: rest =>
      if isWordOrHyphen char then (domainRest rest).map (fun name => '.' :: char :: name) else none
  | char :: rest => if isWordOrHyphen char then (domainRest rest).map (char :: ·) else none

def domain : Text → Option Text
  | [] => none
  | char :: rest => if isWordOrHyphen char then (domainRest rest).map (char :: ·) else none

/-- What may stand before a domain whose subdomains are meant, too. -/
def treeFronts : List Text :=
  ["(^|\\.)".toList, "(?:^|\\.)".toList, "^.+\\.".toList, "^.*\\.".toList, "\\.".toList]

inductive Equivalent where
  | tree (domain : Text)
  | set (domain : Text)
  deriving DecidableEq

def domainBehind (fronts : List Text) (text : Text) : Option Text :=
  fronts.findSome? fun front =>
    if front.isPrefixOf text then domain (text.drop front.length) else none

/-- What `TREE_SET_RULE_EQUIV` captures. -/
def treeSetRuleEquiv (rule : Text) : Option Equivalent :=
  if rule.getLast? = some '$' then
    match domainBehind treeFronts rule.dropLast with
    | some domain => some (.tree domain)
    | none => (domainBehind [['^']] rule.dropLast).map .set
  else none

structure ParsingRules where
  name : Text
  ipv4 : List Subnet
  ipv6 : List Subnet
  rulesRegex : List Text
  rulesSet : List Text
  rulesTree : List (Text × PrefixTree Text)

namespace ParsingRules

def new (name : Text) : ParsingRules := ⟨name, [], [], [], [], []⟩

def addNet (rules : ParsingRules) (net : Subnet) : ParsingRules :=
  if net.address.bytes.length = 4 then { rules with ipv4 := rules.ipv4 ++ [net] }
  else { rules with ipv6 := rules.ipv6 ++ [net] }

def checkIsAscii (rules : ParsingRules) (text : Text) : Except Text Text :=
  if isAscii text then .ok (trimDots text)
  else .error (rules.name ++ " parsing error: Unicode not allowed here `".toList ++ text ++
    "`".toList)

def addSetRule (rules : ParsingRules) (rule : Text) : Except Text ParsingRules := do
  let name ← rules.checkIsAscii rule
  return { rules with rulesSet := rules.rulesSet ++ [toAsciiLowercase name] }

/-- The tree keeps labels in lower case. -/
def addTreeRule (rules : ParsingRules) (rule : Text) : Except Text ParsingRules := do
  let name ← rules.checkIsAscii rule
  return { rules with
    rulesTree := PrefixTree.insert ((labels name).map toAsciiLowercase) rules.rulesTree }

def addRegexRule (rules : ParsingRules) (rule : Text) : ParsingRules :=
  let plain := { rules with rulesRegex := rules.rulesRegex ++ [toAsciiLowercase rule] }
  match treeSetRuleEquiv rule with
  | some (.tree domain) => (rules.addTreeRule domain).toOption.getD plain
  | some (.set domain) => (rules.addSetRule domain).toOption.getD plain
  | none => plain

def intoRules (crates : AclCrates) (rules : ParsingRules) : Except Text Rules :=
  match crates.compile rules.rulesRegex with
  | some error => .error (rules.name ++ " regex error: ".toList ++ error)
  | none => .ok ⟨rules.ipv4, rules.ipv6, rules.rulesRegex, rules.rulesSet, rules.rulesTree⟩

end ParsingRules

/-! ## Loading -/

namespace AccessControl

inductive Mode where
  | blackList
  | whiteList
  deriving DecidableEq

def isWhitespace (char : Char) : Bool :=
  (0x09 ≤ char.toNat && char.toNat ≤ 0x0d) || char.toNat = 0x20 || char.toNat = 0x85 ||
    char.toNat = 0xa0 || char.toNat = 0x1680 ||
    (0x2000 ≤ char.toNat && char.toNat ≤ 0x200a) || char.toNat = 0x2028 ||
    char.toNat = 0x2029 || char.toNat = 0x202f || char.toNat = 0x205f || char.toNat = 0x3000

/-- A line feed ends a line, and takes a carriage return before it along. -/
def bufLinesFrom (start : Text) : Text → List Text
  | [] => if start = [] then [] else [start]
  | char :: rest =>
      if char = '\n' then
        (if start.getLast? = some '\r' then start.dropLast else start) :: bufLinesFrom [] rest
      else bufLinesFrom (start ++ [char]) rest

def bufLines (text : Text) : List Text := bufLinesFrom [] text

structure Loading where
  mode : Mode
  outboundBlock : ParsingRules
  bypass : ParsingRules
  proxy : ParsingRules
  curr : Target

namespace Loading

def start : Loading where
  mode := .blackList
  outboundBlock := .new "[outbound_block_list]".toList
  bypass := .new "[black_list] or [bypass_list]".toList
  proxy := .new "[white_list] or [proxy_list]".toList
  curr := .bypass

def rules (state : Loading) : ParsingRules :=
  match state.curr with
  | .outbound => state.outboundBlock
  | .bypass => state.bypass
  | .proxy => state.proxy

def setRules (state : Loading) (rules : ParsingRules) : Loading :=
  match state.curr with
  | .outbound => { state with outboundBlock := rules }
  | .bypass => { state with bypass := rules }
  | .proxy => { state with proxy := rules }

def unbarred (crates : AclCrates) (state : Loading) (line : Text) : Loading :=
  if line = "[reject_all]".toList ∨ line = "[bypass_all]".toList then
    { state with mode := .whiteList }
  else if line = "[accept_all]".toList ∨ line = "[proxy_all]".toList then
    { state with mode := .blackList }
  else if line = "[outbound_block_list]".toList then { state with curr := .outbound }
  else if line = "[black_list]".toList ∨ line = "[bypass_list]".toList then
    { state with curr := .bypass }
  else if line = "[white_list]".toList ∨ line = "[proxy_list]".toList then
    { state with curr := .proxy }
  else
    match crates.parseIpNet line with
    | some net => state.setRules (state.rules.addNet net)
    | none =>
        match crates.parseIpAddr line with
        | some ip => state.setRules (state.rules.addNet (hostNet ip))
        | none => state.setRules (state.rules.addRegexRule line)

def line (crates : AclCrates) (state : Loading) (line : Text) : Except Text Loading :=
  if line.isEmpty then .ok state
  else if line.head? = some '#' then .ok state
  else
    let line := Text.trim isWhitespace line
    if !isAscii line then .ok state
    else if "||".toList.isPrefixOf line then
      (state.rules.addTreeRule (line.drop 2)).map state.setRules
    else if "|".toList.isPrefixOf line then
      (state.rules.addSetRule (line.drop 1)).map state.setRules
    else .ok (state.unbarred crates line)

end Loading

end AccessControl

structure AccessControl where
  outboundBlock : Rules
  blackList : Rules
  whiteList : Rules
  mode : AccessControl.Mode

namespace AccessControl

def Loading.finish (crates : AclCrates) (state : Loading) : Except Text AccessControl := do
  let outboundBlock ← state.outboundBlock.intoRules crates
  let blackList ← state.bypass.intoRules crates
  let whiteList ← state.proxy.intoRules crates
  return ⟨outboundBlock, blackList, whiteList, state.mode⟩

/-- `load_from_file`, of a file that can be read. -/
def loadFromFile (crates : AclCrates) (text : Text) : Except Text AccessControl := do
  let state ← (bufLines text).foldlM (Loading.line crates) Loading.start
  state.finish crates

/-! ## Questions -/

def checkAsciiHostInProxyList (crates : AclCrates) (acl : AccessControl) (host : Text) :
    Option Bool :=
  if acl.whiteList.checkHostMatched crates host then some true
  else if acl.blackList.checkHostMatched crates host then some false
  else none

/-- A name that has no form in ASCII is looked up as it is. -/
def convertToAscii (crates : AclCrates) (host : Text) : Text :=
  (crates.domainToAscii host).getD host

def checkHostInProxyList (crates : AclCrates) (acl : AccessControl) (host : Text) : Option Bool :=
  acl.checkAsciiHostInProxyList crates (convertToAscii crates host)

def isIpEmpty (acl : AccessControl) : Bool :=
  match acl.mode with
  | .blackList => acl.blackList.isIpEmpty
  | .whiteList => acl.whiteList.isIpEmpty

def isHostEmpty (acl : AccessControl) : Bool :=
  acl.blackList.isHostEmpty && acl.whiteList.isHostEmpty

def checkIpInProxyList (acl : AccessControl) (ip : IpAddr) : Bool :=
  match acl.mode with
  | .blackList => !acl.blackList.checkIpMatched ip
  | .whiteList => acl.whiteList.checkIpMatched ip

def isDefaultInProxyList (acl : AccessControl) : Bool :=
  match acl.mode with
  | .blackList => true
  | .whiteList => false

def ipOf : SocketAddr → IpAddr
  | .v4 address => ⟨(Bytes.bigEndian 4 address.ip.toNat).map UInt8.toBitVec,
      Or.inl (by rw [List.length_map, Bytes.length_bigEndian])⟩
  | .v6 address => ⟨(Bytes.bigEndian 16 address.ip.toNat).map UInt8.toBitVec,
      Or.inr (by rw [List.length_map, Bytes.length_bigEndian])⟩

/-- Names are looked up only if the rules have addresses; `resolve` is nothing if that
fails. -/
def checkTargetBypassed (crates : AclCrates) (resolve : Text → UInt16 → Option (List IpAddr))
    (acl : AccessControl) : Address → Bool
  | .socketAddress address => !acl.checkIpInProxyList (ipOf address)
  | .domainNameAddress host port =>
      match acl.checkHostInProxyList crates host with
      | some value => !value
      | none =>
          if acl.isIpEmpty then !acl.isDefaultInProxyList
          else
            match resolve host port with
            | some ips => ips.any (!acl.checkIpInProxyList ·)
            | none => false

end AccessControl

/-! ## Rules one by one -/

/-- What a line that is a rule says. Names are in lower case and without dots at the end. -/
inductive Rule where
  | tree (name : Text)
  | set (name : Text)
  | network (net : Subnet)
  | regex (pattern : Text)

namespace Rule

def normal (name : Text) : Text := toAsciiLowercase (trimDots name)

def ofRegex (text : Text) : Rule :=
  match treeSetRuleEquiv text with
  | some (.tree domain) => .tree (normal domain)
  | some (.set domain) => .set (normal domain)
  | none => .regex (toAsciiLowercase text)

def classify (crates : AclCrates) (text : Text) : Rule :=
  if "||".toList.isPrefixOf text then .tree (normal (text.drop 2))
  else if "|".toList.isPrefixOf text then .set (normal (text.drop 1))
  else
    match crates.parseNet text with
    | some net => .network net
    | none => ofRegex text

/-- Whether a rule is about a host, given without dots at the end. -/
def matchesHost (crates : AclCrates) (host : Text) : Rule → Bool
  | .tree name => host == name || ('.' :: name).isSuffixOf host
  | .set name => host == name
  | .network _ => false
  | .regex pattern => crates.isMatch pattern host

/-- IPv4 addresses are also what IPv6 maps them to. -/
def netCovers (net : Subnet) (ip : IpAddr) : Bool :=
  netContains net ip || netContains net ip.toIpv6Mapped ||
    ip.toIpv4Mapped.any (netContains net ·)

def matchesIp (ip : IpAddr) : Rule → Bool
  | .network net => netCovers net ip
  | _ => false

def pattern? : Rule → Option Text
  | .regex pattern => some pattern
  | _ => none

end Rule

namespace ParsingRules

def asRules (rules : ParsingRules) : Rules :=
  ⟨rules.ipv4, rules.ipv6, rules.rulesRegex, rules.rulesSet, rules.rulesTree⟩

def add (rules : ParsingRules) : Rule → ParsingRules
  | .tree name => { rules with rulesTree := PrefixTree.insert (labels name) rules.rulesTree }
  | .set name => { rules with rulesSet := rules.rulesSet ++ [name] }
  | .network net => rules.addNet net
  | .regex pattern => { rules with rulesRegex := rules.rulesRegex ++ [pattern] }

def addAll (rules : ParsingRules) (list : List Rule) : ParsingRules := list.foldl add rules

end ParsingRules

theorem toLower_eq_dot_iff {char : Char} : char.toLower = '.' ↔ char = '.' := by
  refine ⟨fun lower => ?_, fun same => by rw [same]; rfl⟩
  by_cases upper : 65 ≤ char.toNat ∧ char.toNat ≤ 90
  · have letters : ∀ code ∈ List.range 91, 65 ≤ code → (Char.ofNat code).toLower ≠ '.' := by
      decide
    have none := letters char.toNat (List.mem_range.mpr (by omega)) upper.1
    rw [Char.ofNat_toNat] at none
    exact absurd lower none
  · have same : char.toLower = char := dif_neg fun inside => upper ⟨inside.1, inside.2⟩
    exact same.symm.trans lower

/-- Lower case leaves the dots where they are. -/
theorem labels_toAsciiLowercase (name : Text) :
    labels (toAsciiLowercase name) = (labels name).map toAsciiLowercase := by
  rw [labels, labels, List.map_reverse]
  congr 1
  induction name with
  | nil => rfl
  | cons char rest ih =>
      have cons : toAsciiLowercase (char :: rest) = char.toLower :: toAsciiLowercase rest := rfl
      rw [cons, List.splitOn_cons_eq_if_modifyHead, List.splitOn_cons_eq_if_modifyHead, ih]
      by_cases dot : char = '.'
      · rw [dot]
        rfl
      · have lower : ¬ char.toLower = '.' := fun same => dot (toLower_eq_dot_iff.mp same)
        rw [if_neg (by simpa using lower), if_neg (by simpa using dot)]
        cases rest.splitOn '.' <;> rfl

theorem labels_ne_nil (name : Text) : labels name ≠ [] := by
  rw [labels, ne_eq, List.reverse_eq_nil_iff]
  exact List.splitOn_ne_nil '.' name

/-- A name lies in a domain exactly if it begins with the labels of the domain, read from
behind. -/
theorem labels_prefix_iff {name host : Text} :
    labels name <+: labels host ↔ host = name ∨ '.' :: name <:+ host := by
  rw [labels, labels, List.reverse_prefix]
  exact splitOn_suffix_iff

namespace ParsingRules

variable {crates : AclCrates}

/-- A rule that is added makes the hosts match that it is about, and no others. -/
theorem checkHostMatched_add (rules : ParsingRules) (rule : Rule) (host : Text) :
    (rules.add rule).asRules.checkHostMatched crates host =
      (rules.asRules.checkHostMatched crates host || rule.matchesHost crates (trimDots host)) := by
  rw [Bool.eq_iff_iff]
  cases rule with
  | tree name =>
      have inserted := PrefixTree.contains_insert (labels_ne_nil name) (labels (trimDots host))
        rules.rulesTree
      rw [labels_prefix_iff] at inserted
      simp only [Rules.checkHostMatched, asRules, add, Rule.matchesHost, Bool.or_eq_true,
        inserted, beq_iff_eq, List.isSuffixOf_iff_suffix]
      tauto
  | set name =>
      simp only [Rules.checkHostMatched, asRules, add, Rule.matchesHost, Bool.or_eq_true,
        List.contains_append, List.contains_cons, List.contains_nil, Bool.or_false, beq_iff_eq]
      tauto
  | network net =>
      simp only [Rules.checkHostMatched, asRules, add, addNet, Rule.matchesHost, Bool.or_false]
      split <;> rfl
  | regex pattern =>
      simp only [Rules.checkHostMatched, asRules, add, Rule.matchesHost, Bool.or_eq_true,
        List.any_append, List.any_cons, List.any_nil, Bool.or_false]
      tauto

/-- Addresses of the other family are in no network. -/
theorem netContains_of_family {net : Subnet} {ip : IpAddr}
    (apart : net.address.bytes.length ≠ ip.bytes.length) : netContains net ip = false := by
  rw [netContains, decide_eq_false apart, Bool.false_and]

/-- A network is asked about the address of its family that an address stands for. -/
theorem netCovers_eq (net : Subnet) (ip : IpAddr) :
    Rule.netCovers net ip =
      if net.address.bytes.length = 4 then
        if ip.isV4 then netContains net ip else ip.toIpv4Mapped.any (netContains net ·)
      else if ip.isV4 then netContains net ip.toIpv6Mapped else netContains net ip := by
  unfold Rule.netCovers
  rcases ip.size with four | sixteen
  · have mapped : ip.toIpv6Mapped.bytes.length = 16 := by
      rw [IpAddr.toIpv6Mapped, dif_pos four]
      simp [IpAddr.mappedPrefix, four]
    have none : ip.toIpv4Mapped = none := by rw [IpAddr.toIpv4Mapped, dif_neg (by omega)]
    have isV4 : ip.isV4 = true := decide_eq_true four
    rw [if_pos isV4, if_pos isV4, none]
    split
    · simp [@netContains_of_family net ip.toIpv6Mapped (by omega)]
    · simp [@netContains_of_family net ip (by omega)]
  · have same : ip.toIpv6Mapped = ip := by rw [IpAddr.toIpv6Mapped, dif_neg (by omega)]
    have isV6 : ¬ ip.isV4 = true := by
      rw [IpAddr.isV4, decide_eq_true_eq]
      omega
    rw [if_neg isV6, if_neg isV6, same, Bool.or_self]
    split
    · rw [@netContains_of_family net ip (by omega), Bool.false_or]
    · cases found : ip.toIpv4Mapped with
      | none => exact Bool.or_false _
      | some mapped =>
          have four : mapped.bytes.length = 4 := by
            rw [IpAddr.toIpv4Mapped, dif_pos sixteen] at found
            split at found
            · cases found
              simp [sixteen]
            · cases found
          simp [@netContains_of_family net mapped (by omega)]

theorem checkIpMatched_add (rules : ParsingRules) (rule : Rule) (ip : IpAddr) :
    (rules.add rule).asRules.checkIpMatched ip =
      (rules.asRules.checkIpMatched ip || rule.matchesIp ip) := by
  cases rule with
  | tree name => exact (Bool.or_false _).symm
  | set name => exact (Bool.or_false _).symm
  | regex pattern => exact (Bool.or_false _).symm
  | network net =>
      simp only [add, addNet, Rule.matchesIp, netCovers_eq, Rules.checkIpMatched]
      by_cases v4 : ip.isV4 = true
      · simp only [if_pos v4]
        split <;> simp only [asRules, List.any_append, List.any_cons, List.any_nil, Bool.or_false]
        · ac_rfl
        · ac_rfl
      · simp only [if_neg v4]
        split
        · cases ip.toIpv4Mapped with
          | none => simp [asRules]
          | some mapped =>
              simp only [asRules, List.any_append, List.any_cons, List.any_nil, Bool.or_false,
                Option.any_some]
              ac_rfl
        · simp only [asRules, List.any_append, List.any_cons, List.any_nil, Bool.or_false]
          ac_rfl

/-- A list of rules answers like its rules one by one. -/
theorem checkHostMatched_addAll (list : List Rule) (rules : ParsingRules) (host : Text) :
    (rules.addAll list).asRules.checkHostMatched crates host =
      (rules.asRules.checkHostMatched crates host ||
        list.any (·.matchesHost crates (trimDots host))) := by
  induction list generalizing rules with
  | nil => exact (Bool.or_false _).symm
  | cons rule list ih =>
      rw [addAll, List.foldl_cons, ← addAll, ih, checkHostMatched_add, List.any_cons,
        Bool.or_assoc]

theorem checkIpMatched_addAll (list : List Rule) (rules : ParsingRules) (ip : IpAddr) :
    (rules.addAll list).asRules.checkIpMatched ip =
      (rules.asRules.checkIpMatched ip || list.any (·.matchesIp ip)) := by
  induction list generalizing rules with
  | nil => exact (Bool.or_false _).symm
  | cons rule list ih =>
      rw [addAll, List.foldl_cons, ← addAll, ih, checkIpMatched_add, List.any_cons,
        Bool.or_assoc]

theorem rulesRegex_addAll (list : List Rule) (rules : ParsingRules) :
    (rules.addAll list).rulesRegex = rules.rulesRegex ++ list.filterMap Rule.pattern? := by
  induction list generalizing rules with
  | nil => exact (List.append_nil _).symm
  | cons rule list ih =>
      rw [addAll, List.foldl_cons, ← addAll, ih]
      cases rule with
      | tree name => rfl
      | set name => rfl
      | network net =>
          simp only [add, addNet, Rule.pattern?, List.filterMap_cons]
          split <;> rfl
      | regex pattern =>
          simp only [add, Rule.pattern?, List.filterMap_cons, List.append_assoc,
            List.singleton_append]

end ParsingRules

/-! ## Lines -/

theorem isAscii_of_subset {text part : Text} (ascii : isAscii text = true)
    (inside : part ⊆ text) : isAscii part = true := by
  rw [isAscii, List.all_eq_true] at ascii ⊢
  exact fun char member => ascii char (inside member)

theorem toNat_of_isWordOrHyphen {char : Char} (word : isWordOrHyphen char = true) :
    char.toNat < 128 := by
  simp only [isWordOrHyphen, Char.isAlphanum, Bool.or_eq_true, decide_eq_true_eq] at word
  rcases word with ((alpha | digit) | rfl) | rfl
  · rcases Bool.or_eq_true_iff.mp alpha with upper | lower
    · have := Text.toNat_of_isUpper upper
      omega
    · have := Text.toNat_of_isLower lower
      omega
  · have range : 48 ≤ char.toNat ∧ char.toNat ≤ 57 := by
      simpa [Char.isDigit, UInt32.le_iff_toNat_le] using digit
    omega
  · decide
  · decide

theorem isAscii_cons {char : Char} {text : Text} :
    isAscii (char :: text) = true ↔ char.toNat < 128 ∧ isAscii text = true := by
  rw [isAscii, List.all_cons, Bool.and_eq_true, decide_eq_true_eq, isAscii]

theorem isAscii_domainRest {text name : Text} (found : domainRest text = some name) :
    isAscii name = true := by
  fun_induction domainRest text generalizing name with
  | case1 =>
      cases found
      rfl
  | case2 =>
      cases found
      rfl
  | case3 char rest word ih =>
      obtain ⟨tail, parsed, rfl⟩ := Option.map_eq_some_iff.mp found
      exact isAscii_cons.mpr ⟨by decide,
        isAscii_cons.mpr ⟨toNat_of_isWordOrHyphen word, ih parsed⟩⟩
  | case4 => cases found
  | case5 char rest _ _ word ih =>
      obtain ⟨tail, parsed, rfl⟩ := Option.map_eq_some_iff.mp found
      exact isAscii_cons.mpr ⟨toNat_of_isWordOrHyphen word, ih parsed⟩
  | case6 => cases found

theorem isAscii_domain {text name : Text} (found : domain text = some name) :
    isAscii name = true := by
  cases text with
  | nil => cases found
  | cons char rest =>
      rw [domain] at found
      split at found
      · rename_i word
        obtain ⟨tail, parsed, rfl⟩ := Option.map_eq_some_iff.mp found
        exact isAscii_cons.mpr ⟨toNat_of_isWordOrHyphen word, isAscii_domainRest parsed⟩
      · cases found

theorem isAscii_domainBehind {fronts : List Text} {text name : Text}
    (found : domainBehind fronts text = some name) : isAscii name = true := by
  obtain ⟨front, _, behind⟩ := List.exists_of_findSome?_eq_some found
  split at behind
  · exact isAscii_domain behind
  · cases behind

namespace ParsingRules

theorem checkIsAscii_of_ascii {rules : ParsingRules} {text : Text} (ascii : isAscii text = true) :
    rules.checkIsAscii text = .ok (trimDots text) := by
  rw [checkIsAscii, if_pos ascii]

theorem addTreeRule_of_ascii {rules : ParsingRules} {text : Text} (ascii : isAscii text = true) :
    rules.addTreeRule text = .ok (rules.add (.tree (Rule.normal text))) := by
  rw [addTreeRule, checkIsAscii_of_ascii ascii, add, Rule.normal, labels_toAsciiLowercase]
  rfl

theorem addSetRule_of_ascii {rules : ParsingRules} {text : Text} (ascii : isAscii text = true) :
    rules.addSetRule text = .ok (rules.add (.set (Rule.normal text))) := by
  rw [addSetRule, checkIsAscii_of_ascii ascii]
  rfl

/-- A regular expression that stands for a name never fails to be added as one. -/
theorem addRegexRule_eq (rules : ParsingRules) (text : Text) :
    rules.addRegexRule text = rules.add (Rule.ofRegex text) := by
  unfold addRegexRule Rule.ofRegex
  cases found : treeSetRuleEquiv text with
  | none => rfl
  | some equivalent =>
      rw [treeSetRuleEquiv] at found
      split at found
      · split at found
        · rename_i behind
          cases found
          dsimp only
          rw [addTreeRule_of_ascii (isAscii_domainBehind behind)]
          rfl
        · obtain ⟨name, behind, rfl⟩ := Option.map_eq_some_iff.mp found
          dsimp only
          rw [addSetRule_of_ascii (isAscii_domainBehind behind)]
          rfl
      · cases found

end ParsingRules

namespace AccessControl

open Acl (modeOf sectionOf)

/-- What is left of a line: nothing of a comment or of a line that is not ASCII. -/
def content (line : Text) : Option Text :=
  if line.isEmpty || line.head? = some '#' then none
  else
    let text := Text.trim isWhitespace line
    if isAscii text then some text else none

def modeFor (bypass : Bool) : Mode := if bypass then .whiteList else .blackList

namespace Loading

variable {crates : AclCrates}

def text (crates : AclCrates) (state : Loading) (text : Text) : Loading :=
  match modeOf text, sectionOf text with
  | some bypass, _ => { state with mode := modeFor bypass }
  | none, some target => { state with curr := target }
  | none, none => state.setRules (state.rules.add (Rule.classify crates text))

/-- A line that starts with a bar is no header. -/
theorem text_of_bar (state : Loading) {text : Text} (bar : "|".toList.isPrefixOf text = true) :
    state.text crates text = state.setRules (state.rules.add (Rule.classify crates text)) := by
  have plain : Acl.isBracketed text = false := by
    obtain ⟨rest, rfl⟩ := List.isPrefixOf_iff_prefix.mp bar
    rfl
  rw [Loading.text, Acl.modeOf_of_not_bracketed plain, Acl.sectionOf_of_not_bracketed plain]

theorem text_of_no_bar (state : Loading) {text : Text}
    (noBars : "||".toList.isPrefixOf text ≠ true) (noBar : "|".toList.isPrefixOf text ≠ true) :
    state.text crates text = state.unbarred crates text := by
  unfold Loading.text modeOf sectionOf Rule.classify unbarred AclCrates.parseNet
  rw [if_neg noBars, if_neg noBar]
  split_ifs <;> try rfl
  dsimp only
  cases crates.parseIpNet text with
  | some net => rfl
  | none =>
      cases crates.parseIpAddr text with
      | some ip => rfl
      | none =>
          rw [ParsingRules.addRegexRule_eq]
          rfl

theorem line_eq (state : Loading) (line : Text) :
    state.line crates line = .ok ((content line).elim state (state.text crates)) := by
  unfold Loading.line content
  by_cases empty : line.isEmpty = true
  · rw [if_pos empty, empty, Bool.true_or, if_pos rfl]
    rfl
  by_cases comment : line.head? = some '#'
  · rw [if_neg empty, if_pos comment, decide_eq_true comment, Bool.or_true, if_pos rfl]
    rfl
  have plain : ¬ (line.isEmpty || decide (line.head? = some '#')) = true := by
    simp [empty, comment]
  rw [if_neg empty, if_neg comment, if_neg plain]
  dsimp only
  generalize Text.trim isWhitespace line = text
  by_cases ascii : isAscii text = true
  · simp only [ascii, Bool.not_true, Bool.false_eq_true, if_false, if_true, Option.elim_some]
    by_cases bars : "||".toList.isPrefixOf text = true
    · have bar : "|".toList.isPrefixOf text = true := by
        obtain ⟨rest, rfl⟩ := List.isPrefixOf_iff_prefix.mp bars
        rfl
      rw [if_pos bars, text_of_bar state bar, Rule.classify, if_pos bars,
        ParsingRules.addTreeRule_of_ascii (isAscii_of_subset ascii (List.drop_subset 2 text))]
      rfl
    · rw [if_neg bars]
      by_cases bar : "|".toList.isPrefixOf text = true
      · rw [if_pos bar, text_of_bar state bar, Rule.classify, if_neg bars, if_pos bar,
          ParsingRules.addSetRule_of_ascii (isAscii_of_subset ascii (List.drop_subset 1 text))]
        rfl
      · rw [if_neg bar, text_of_no_bar state bars bar]
  · simp only [ascii, Bool.false_eq_true, Bool.not_false, if_false, if_true, Option.elim_none]

def rulesOf (state : Loading) : Target → ParsingRules
  | .outbound => state.outboundBlock
  | .bypass => state.bypass
  | .proxy => state.proxy

end Loading

def sections : Target → List Text → List (Target × Text)
  | _, [] => []
  | target, text :: rest =>
      match sectionOf text with
      | some next => sections next rest
      | none =>
          if (modeOf text).isSome then sections target rest
          else (target, text) :: sections target rest

def rulesIn (crates : AclCrates) (target : Target) (found : List (Target × Text)) : List Rule :=
  found.filterMap fun entry =>
    if entry.1 = target then some (Rule.classify crates entry.2) else none

namespace Loading

variable {crates : AclCrates}

theorem rulesOf_setRules (state : Loading) (rules : ParsingRules) (target : Target) :
    (state.setRules rules).rulesOf target =
      if state.curr = target then rules else state.rulesOf target := by
  unfold setRules
  cases curr : state.curr <;> cases target <;> rfl

theorem rules_eq (state : Loading) : state.rules = state.rulesOf state.curr := by
  unfold rules
  cases curr : state.curr <;> rfl

/-- Behind some lines every section has the rules that stand in it, in their order. -/
theorem rulesOf_foldl_text (texts : List Text) (state : Loading) (target : Target) :
    (texts.foldl (Loading.text crates) state).rulesOf target =
      (state.rulesOf target).addAll (rulesIn crates target (sections state.curr texts)) := by
  induction texts generalizing state with
  | nil => rfl
  | cons text rest ih =>
      rw [List.foldl_cons, ih, sections]
      cases mode : modeOf text with
      | some bypass =>
          rw [Acl.sectionOf_of_modeOf mode, Loading.text, mode]
          rfl
      | none =>
          rw [Loading.text, mode]
          cases place : sectionOf text with
          | some next => rfl
          | none =>
              have kept (rules : ParsingRules) : (state.setRules rules).curr = state.curr := by
                unfold setRules
                cases state.curr <;> rfl
              simp only [kept, rulesOf_setRules, rules_eq, Option.isSome_none,
                Bool.false_eq_true, if_false, rulesIn, List.filterMap_cons]
              split
              · rename_i here
                subst here
                rfl
              · rfl

theorem mode_foldl_text (texts : List Text) (state : Loading) :
    (texts.foldl (Loading.text crates) state).mode =
      ((texts.filterMap modeOf).getLast?.map modeFor).getD state.mode := by
  induction texts generalizing state with
  | nil => rfl
  | cons text rest ih =>
      rw [List.foldl_cons, ih]
      cases mode : modeOf text with
      | some bypass =>
          rw [List.filterMap_cons_some mode, Loading.text, mode]
          cases later : rest.filterMap modeOf with
          | nil => rfl
          | cons first others =>
              rw [List.getLast?_cons_cons]
              cases found : (first :: others).getLast? with
              | none => simp at found
              | some last => rfl
      | none =>
          have kept : (state.text crates text).mode = state.mode := by
            rw [Loading.text, mode]
            cases sectionOf text with
            | some next => rfl
            | none =>
                dsimp only
                unfold setRules
                cases state.curr <;> rfl
          rw [List.filterMap_cons_none mode, kept]

theorem foldlM_line (lines : List Text) (state : Loading) :
    lines.foldlM (Loading.line crates) state =
      .ok ((lines.filterMap content).foldl (Loading.text crates) state) := by
  induction lines generalizing state with
  | nil => rfl
  | cons line rest ih =>
      rw [List.foldlM_cons, line_eq]
      refine (ih _).trans ?_
      cases found : content line with
      | none => rw [List.filterMap_cons_none found, Option.elim_none]
      | some text => rw [List.filterMap_cons_some found, Option.elim_some, List.foldl_cons]

end Loading

/-! ## Files -/

variable {crates : AclCrates}

def fileRules (crates : AclCrates) (text : Text) (target : Target) : List Rule :=
  rulesIn crates target (sections .bypass ((bufLines text).filterMap content))

/-- Whether a file says that what no rule is about is bypassed. -/
def fileBypasses (text : Text) : Bool :=
  (((bufLines text).filterMap content).filterMap modeOf).getLast?.getD false

def ofRules (rules : Target → List Rule) (bypass : Bool) : AccessControl where
  outboundBlock := (Loading.start.outboundBlock.addAll (rules .outbound)).asRules
  blackList := (Loading.start.bypass.addAll (rules .bypass)).asRules
  whiteList := (Loading.start.proxy.addAll (rules .proxy)).asRules
  mode := modeFor bypass

section OfRules

variable (rules : Target → List Rule) (bypass : Bool)

theorem checkAsciiHost_ofRules (host : Text) :
    (ofRules rules bypass).checkAsciiHostInProxyList crates host =
      if (rules .proxy).any (·.matchesHost crates (trimDots host)) then some true
      else if (rules .bypass).any (·.matchesHost crates (trimDots host)) then some false
      else none := by
  rw [checkAsciiHostInProxyList, ofRules, ParsingRules.checkHostMatched_addAll,
    ParsingRules.checkHostMatched_addAll]
  have none (empty : ParsingRules) (set : empty.rulesSet = []) (tree : empty.rulesTree = [])
      (regex : empty.rulesRegex = []) : empty.asRules.checkHostMatched crates host = false := by
    simp [Rules.checkHostMatched, ParsingRules.asRules, set, tree, regex,
      PrefixTree.contains_nil_trees]
  rw [none Loading.start.bypass rfl rfl rfl, none Loading.start.proxy rfl rfl rfl, Bool.false_or,
    Bool.false_or]

theorem checkIp_ofRules (ip : IpAddr) :
    (ofRules rules bypass).checkIpInProxyList ip =
      if bypass then (rules .proxy).any (·.matchesIp ip)
      else !(rules .bypass).any (·.matchesIp ip) := by
  have none (empty : ParsingRules) (v4 : empty.ipv4 = []) (v6 : empty.ipv6 = []) :
      empty.asRules.checkIpMatched ip = false := by
    simp only [Rules.checkIpMatched, ParsingRules.asRules, v4, v6, List.any_nil, Bool.false_or]
    split
    · rfl
    · split <;> rfl
  cases bypass with
  | true =>
      change ((ofRules rules true).whiteList.checkIpMatched ip) = _
      rw [ofRules, ParsingRules.checkIpMatched_addAll, none Loading.start.proxy rfl rfl,
        Bool.false_or, if_pos rfl]
  | false =>
      change (!(ofRules rules false).blackList.checkIpMatched ip) = _
      rw [ofRules, ParsingRules.checkIpMatched_addAll, none Loading.start.bypass rfl rfl,
        Bool.false_or, if_neg (by decide)]

end OfRules

/-- Rules without networks are about no address. -/
theorem checkIpMatched_of_isIpEmpty {rules : Rules} (empty : rules.isIpEmpty = true) (ip : IpAddr) :
    rules.checkIpMatched ip = false := by
  simp only [Rules.isIpEmpty, Bool.and_eq_true, List.isEmpty_iff] at empty
  simp only [Rules.checkIpMatched, empty.1, empty.2, List.any_nil, Bool.false_or]
  split
  · rfl
  · split <;> rfl

/-- A list without networks decides about no address. -/
theorem checkIpInProxyList_of_isIpEmpty {acl : AccessControl} (empty : acl.isIpEmpty = true)
    (ip : IpAddr) : acl.checkIpInProxyList ip = acl.isDefaultInProxyList := by
  unfold isIpEmpty at empty
  unfold isDefaultInProxyList checkIpInProxyList
  cases mode : acl.mode with
  | blackList =>
      rw [mode] at empty
      simp [checkIpMatched_of_isIpEmpty empty]
  | whiteList =>
      rw [mode] at empty
      simp [checkIpMatched_of_isIpEmpty empty]

/-- If no network could decide, the client does not look a name up: its answer is the same
whatever a lookup would say. Where the name can be looked up, this makes no difference. -/
theorem bypassed_as_if_looked_up (acl : AccessControl) (host : Text) (port : UInt16) :
    (acl.isIpEmpty = true → ∀ resolve resolve' : Text → UInt16 → Option (List IpAddr),
      acl.checkTargetBypassed crates resolve (.domainNameAddress host port) =
        acl.checkTargetBypassed crates resolve' (.domainNameAddress host port)) ∧
    ∀ (resolve : Text → UInt16 → Option (List IpAddr)) (ips : List IpAddr),
      resolve host port = some ips → ips ≠ [] →
      acl.checkTargetBypassed crates resolve (.domainNameAddress host port) =
        ((acl.checkHostInProxyList crates host).map (!·)).getD
          (ips.any (!acl.checkIpInProxyList ·)) := by
  refine ⟨?_, ?_⟩
  · intro empty resolve resolve'
    simp only [checkTargetBypassed, if_pos empty]
  · intro resolve ips resolved found
    simp only [checkTargetBypassed, resolved]
    cases acl.checkHostInProxyList crates host with
    | some value => rfl
    | none =>
        simp only [Option.map_none, Option.getD_none]
        by_cases empty : acl.isIpEmpty = true
        · obtain ⟨first, rest, rfl⟩ := List.exists_cons_of_ne_nil found
          rw [if_pos empty]
          simp [checkIpInProxyList_of_isIpEmpty empty]
        · rw [if_neg empty]

/-- A file is loaded exactly if its regular expressions compile, whatever else is in it. -/
theorem loadFromFile_eq_ok_iff {text : Text} {acl : AccessControl} :
    loadFromFile crates text = .ok acl ↔
      (∀ target, crates.compile ((fileRules crates text target).filterMap Rule.pattern?) = none) ∧
        acl = ofRules (fileRules crates text) (fileBypasses text) := by
  have final (target : Target) := @Loading.rulesOf_foldl_text crates
    ((bufLines text).filterMap content) Loading.start target
  have mode := @Loading.mode_foldl_text crates ((bufLines text).filterMap content) Loading.start
  rw [loadFromFile, Loading.foldlM_line]
  change Loading.finish crates _ = _ ↔ _
  generalize ((bufLines text).filterMap content).foldl (Loading.text crates) Loading.start = state
    at final mode
  obtain ⟨outbound, bypass, proxy⟩ : state.outboundBlock =
        Loading.start.outboundBlock.addAll (fileRules crates text .outbound) ∧
      state.bypass = Loading.start.bypass.addAll (fileRules crates text .bypass) ∧
      state.proxy = Loading.start.proxy.addAll (fileRules crates text .proxy) :=
    ⟨final .outbound, final .bypass, final .proxy⟩
  have mode : state.mode = modeFor (fileBypasses text) := by
    rw [mode, fileBypasses]
    cases (((bufLines text).filterMap content).filterMap modeOf).getLast? <;> rfl
  have compiled (rules : ParsingRules) (found : Rules) : rules.intoRules crates = .ok found ↔
      crates.compile rules.rulesRegex = none ∧ found = rules.asRules := by
    unfold ParsingRules.intoRules
    cases crates.compile rules.rulesRegex with
    | some error => simp
    | none => exact ⟨fun same => ⟨rfl, (Except.ok.inj same).symm⟩, fun same => same.2 ▸ rfl⟩
  have patterns (rules : ParsingRules) (list : List Rule) (none : rules.rulesRegex = []) :
      (rules.addAll list).rulesRegex = list.filterMap Rule.pattern? := by
    rw [ParsingRules.rulesRegex_addAll, none, List.nil_append]
  unfold Loading.finish
  simp only [except_bind_eq_ok_iff, compiled, outbound, bypass, proxy]
  rw [patterns Loading.start.outboundBlock _ rfl, patterns Loading.start.bypass _ rfl,
    patterns Loading.start.proxy _ rfl]
  constructor
  · rintro ⟨_, ⟨first, rfl⟩, _, ⟨second, rfl⟩, _, ⟨third, rfl⟩, done⟩
    refine ⟨?_, ?_⟩
    · rintro (_ | _ | _)
      · exact first
      · exact second
      · exact third
    · rw [← Except.ok.inj done, mode]
      rfl
  · rintro ⟨compiles, rfl⟩
    refine ⟨_, ⟨compiles .outbound, rfl⟩, _, ⟨compiles .bypass, rfl⟩, _, ⟨compiles .proxy, rfl⟩, ?_⟩
    rw [mode]
    rfl

/-- A list that was loaded answers like the rules of its lines taken one by one: a host goes
by the first section with a rule about it, the proxied one before the bypassed one, and an
address by the section that the mode makes an exception. -/
theorem loaded_answers_like_its_lines {text : Text} {acl : AccessControl}
    (loaded : loadFromFile crates text = .ok acl) :
    (∀ host, acl.checkAsciiHostInProxyList crates host =
      if (fileRules crates text .proxy).any (·.matchesHost crates (trimDots host)) then some true
      else if (fileRules crates text .bypass).any (·.matchesHost crates (trimDots host)) then
        some false
      else none) ∧
    (∀ ip, acl.checkIpInProxyList ip =
      if fileBypasses text then (fileRules crates text .proxy).any (·.matchesIp ip)
      else !(fileRules crates text .bypass).any (·.matchesIp ip)) := by
  obtain ⟨_, rfl⟩ := loadFromFile_eq_ok_iff.mp loaded
  refine ⟨fun host => ?_, fun ip => ?_⟩
  · exact checkAsciiHost_ofRules _ _ host
  · exact checkIp_ofRules _ _ ip

def plainCrates : AclCrates where
  parseIpNet := fun _ => none
  parseIpAddr := fun _ => none
  compile := fun _ => none
  isMatch := fun pattern host => pattern == host
  domainToAscii := some

def plainIp : IpAddr := ⟨[1, 2, 3, 4], Or.inl rfl⟩

def plainRules : Target → List Rule
  | .bypass => [.network (hostNet plainIp)]
  | _ => []

theorem bypassed_as_if_looked_up_host :
    (∀ resolve, (ofRules (fun _ => []) true).checkTargetBypassed plainCrates resolve
      (.domainNameAddress ['a'] 80) = true) ∧
    (ofRules plainRules false).checkTargetBypassed plainCrates (fun _ _ => some [plainIp])
      (.domainNameAddress ['a'] 80) = true := by
  refine ⟨?_, ?_⟩
  · intro resolve
    rw [(bypassed_as_if_looked_up _ ['a'] 80).1 (by decide +kernel) resolve (fun _ _ => none)]
    decide +kernel
  · rw [(bypassed_as_if_looked_up _ ['a'] 80).2 _ _ rfl (List.cons_ne_nil _ _)]
    decide +kernel

theorem loaded_answers_like_its_lines_tree :
    ∃ acl, loadFromFile plainCrates "[proxy_list]\n||Example.com.\n".toList = .ok acl ∧
      acl.checkAsciiHostInProxyList plainCrates "www.example.com".toList = some true := by
  have loads : (loadFromFile plainCrates "[proxy_list]\n||Example.com.\n".toList).isOk = true := by
    decide +kernel
  cases loaded : loadFromFile plainCrates "[proxy_list]\n||Example.com.\n".toList with
  | error _ =>
      rw [loaded] at loads
      cases loads
  | ok acl =>
      refine ⟨acl, rfl, ?_⟩
      rw [(loaded_answers_like_its_lines loaded).1]
      decide +kernel

end AccessControl

end AlienConnection.Native
