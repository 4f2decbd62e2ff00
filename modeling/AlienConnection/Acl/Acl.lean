import AlienConnection.Library.SortedList
import AlienConnection.Net.Subnet

/-!
# Access control lists

Reading an access control list line by line, writing it, and merging the lists it
imports. A URL, its text and what a regular expression takes for a space belong
to the platform.
-/

namespace AlienConnection

open Library Net

namespace Acl

def isWhitespace (char : Char) : Bool :=
  (0x09 ≤ char.toNat && char.toNat ≤ 0x0d) || (0x1c ≤ char.toNat && char.toNat ≤ 0x20) ||
    char.toNat = 0xa0 || char.toNat = 0x1680 ||
    (0x2000 ≤ char.toNat && char.toNat ≤ 0x200a) || char.toNat = 0x2028 ||
    char.toNat = 0x2029 || char.toNat = 0x202f || char.toNat = 0x205f || char.toNat = 0x3000

/-- What access control lists use of the platform: addresses, the constructor of
`URL` (nothing when it throws) and its components, and the characters that `\s`
matches and that `.` does not match. -/
structure Platform (Url : Type) extends Numerics where
  url : Text → Option Url
  urlText : Url → Text
  host : Url → Text
  port : Url → Int
  file : Url → Text
  protocol : Url → Text
  space : Char → Bool
  lineTerminator : Char → Bool

namespace Platform

variable {Url : Type}

/-- The order of `URLSorter`: host, port, file, protocol. -/
def sortKey (platform : Platform Url) (url : Url) : List (List Int) :=
  [(Text.utf16 (platform.host url)).map Int.ofNat, [platform.port url],
    (Text.utf16 (platform.file url)).map Int.ofNat,
    (Text.utf16 (platform.protocol url)).map Int.ofNat]

/-- The group of `networkAclParser` when it matches the whole text. -/
def networkAclParser (platform : Platform Url) (text : Text) : Option Text :=
  if "IMPORT_URL".toList.isPrefixOf text then
    match (text.drop "IMPORT_URL".length).dropWhile platform.space with
    | [] => none
    | first :: rest =>
        let body := rest.rdropWhile platform.space
        if first = '<' ∧ body.getLast? = some '>' ∧ body.dropLast ≠ [] ∧
            body.dropLast.all (fun char => !platform.lineTerminator char) then
          some body.dropLast
        else none
  else none

end Platform

/-! ## Reading -/

/-- The list that entries go to. Those of the outbound block list are ignored. -/
inductive Target where
  | outbound
  | bypass
  | proxy
  deriving DecidableEq

/-- The variables of `parse`, with the calls of its three callbacks in order. -/
structure Parsing (Url : Type) where
  bypass : Bool
  target : Target
  bypassSubnets : List Subnet := []
  proxySubnets : List Subnet := []
  bypassHostnames : List Text := []
  proxyHostnames : List Text := []
  urls : List Url := []

section

variable {Url : Type} (platform : Platform Url)

/-- A line in brackets. An unknown one is an error. -/
def Parsing.header (state : Parsing Url) (input : Text) : Option (Parsing Url) :=
  if input = "[outbound_block_list]".toList then some { state with target := .outbound }
  else if input = "[black_list]".toList ∨ input = "[bypass_list]".toList then
    some { state with target := .bypass }
  else if input = "[white_list]".toList ∨ input = "[proxy_list]".toList then
    some { state with target := .proxy }
  else if input = "[reject_all]".toList ∨ input = "[bypass_all]".toList then
    some { state with bypass := true }
  else if input = "[accept_all]".toList ∨ input = "[proxy_all]".toList then
    some { state with bypass := false }
  else none

/-- An entry: a subnet if it reads as one, a host name otherwise. -/
def Parsing.entry (state : Parsing Url) (input : Text) : Parsing Url :=
  match state.target, Subnet.fromString platform.toNumerics input with
  | .outbound, _ => state
  | .bypass, none => { state with bypassHostnames := state.bypassHostnames ++ [input] }
  | .bypass, some subnet => { state with bypassSubnets := state.bypassSubnets ++ [subnet] }
  | .proxy, none => { state with proxyHostnames := state.proxyHostnames ++ [input] }
  | .proxy, some subnet => { state with proxySubnets := state.proxySubnets ++ [subnet] }

def Parsing.input (state : Parsing Url) (input : Text) : Option (Parsing Url) :=
  if input.head? = some '[' then state.header input
  else if input = [] then some state
  else some (state.entry platform input)

/-- One line. Behind `#` stands a comment, which may import a URL. Without a callback
for URLs there are no comments. -/
def Parsing.line (withUrls : Bool) (state : Parsing Url) (line : Text) :
    Option (Parsing Url) :=
  if withUrls then
    let blocks := Text.cut '#' line
    let input := Text.trim isWhitespace blocks.1
    match platform.networkAclParser (blocks.2.getD []) with
    | none => state.input platform input
    | some text =>
        match platform.url text with
        | none => none
        | some url => Parsing.input platform { state with urls := state.urls ++ [url] } input
  else state.input platform (Text.trim isWhitespace line)

def Parsing.start (defaultBypass : Bool) : Parsing Url where
  bypass := defaultBypass
  target := if defaultBypass then .proxy else .bypass

def parse (withUrls : Bool) (reader : Text) (defaultBypass : Bool) : Option (Parsing Url) :=
  (Text.lines reader).foldlM (Parsing.line platform withUrls) (Parsing.start defaultBypass)

/-- The subnets that `parse` returns: those of the other list than the mode's. -/
def Parsing.subnets (state : Parsing Url) : List Subnet :=
  if state.bypass then state.proxySubnets else state.bypassSubnets

end

end Acl

/-! ## Lists -/

@[ext]
structure Acl {Url : Type} (platform : Acl.Platform Url) where
  bypassHostnames : SortedList Text.utf16 := .empty
  proxyHostnames : SortedList Text.utf16 := .empty
  subnets : SortedList Subnet.sortKey := .empty
  urls : SortedList platform.sortKey := .empty
  bypass : Bool := false

namespace Acl

variable {Url : Type} {platform : Platform Url}

def sectionText (header : Text) (entries : List Text) : Text :=
  if entries = [] then []
  else header ++ ['\n'] ++ ['\n'].intercalate entries ++ ['\n']

def bypassList (acl : Acl platform) : List Text :=
  if acl.bypass then acl.bypassHostnames.items
  else acl.subnets.items.map (Subnet.toString platform.toNumerics) ++ acl.bypassHostnames.items

def proxyList (acl : Acl platform) : List Text :=
  if acl.bypass then
    acl.subnets.items.map (Subnet.toString platform.toNumerics) ++ acl.proxyHostnames.items
  else acl.proxyHostnames.items

def toString (acl : Acl platform) : Text :=
  (if acl.bypass then "[bypass_all]\n".toList else "[proxy_all]\n".toList) ++
    sectionText "[bypass_list]".toList acl.bypassList ++
    sectionText "[proxy_list]".toList acl.proxyList ++
    acl.urls.items.flatMap (fun url =>
      "#IMPORT_URL <".toList ++ platform.urlText url ++ ['>', '\n'])

variable [DecidableEq Url]

def ofParsing (state : Parsing Url) : Acl platform where
  bypassHostnames := SortedList.empty.addAll state.bypassHostnames
  proxyHostnames := SortedList.empty.addAll state.proxyHostnames
  subnets := SortedList.empty.addAll state.subnets
  urls := SortedList.empty.addAll state.urls
  bypass := state.bypass

/-- `fromReader`. The result is nothing when an unknown header or a malformed URL is
read. -/
def fromReader (platform : Platform Url) (reader : Text) (defaultBypass : Bool) :
    Option (Acl platform) :=
  (parse platform true reader defaultBypass).map ofParsing

/-! ## Imports -/

/-- What an imported list contributes. Subnets of the other mode are discarded. -/
def merge (acl child : Acl platform) : Acl platform :=
  { acl with
    bypassHostnames := acl.bypassHostnames.addAll child.bypassHostnames.items
    proxyHostnames := acl.proxyHostnames.addAll child.proxyHostnames.items
    subnets := if acl.bypass = child.bypass then acl.subnets.addAll child.subnets.items
      else acl.subnets }

/-- The list behind a URL, read under the mode of its importer. The result is nothing
when the connection or the reader fails. -/
def imported (connect : Url → Option Text) (bypass : Bool) (url : Url) : Option (Acl platform) :=
  (connect url).bind (fun reader => fromReader platform reader bypass)

def flatten (connect : Url → Option Text) : Nat → Acl platform → Option (Acl platform)
  | 0, acl => some { acl with urls := .empty }
  | depth + 1, acl =>
      (acl.urls.items.foldlM (fun acl url =>
        ((imported connect acl.bypass url).bind (flatten connect depth)).map acl.merge) acl).map
        (fun acl => { acl with urls := .empty })

end Acl

end AlienConnection
