import AlienConnection.Library.Machine
import AlienConnection.Native.AccessControl

/-!
# Names that the device looks up

The client answers the device's questions for names. A name that a rule sends through the
server is asked for there, a name that a rule bypasses is asked for on the network, and for
any other name both are asked and the network's answer decides. The addresses of an answer
are remembered, so that connections to them go the way of their name.
-/

namespace AlienConnection.Native

open Library

/-- What is used of the names of another crate, which are equal regardless of case. -/
structure NameCrate (Name : Type) where
  isFqdn : Name → Bool
  toAscii : Name → Text
  /-- A label that is not UTF-8 is an asterisk. -/
  labels : Name → List Text

inductive RecordType where
  | a
  | aaaa
  | ptr
  | any
  | other (code : Nat)
  deriving DecidableEq

inductive RData (Name : Type) where
  /-- Of `A` and of `AAAA` records. -/
  | address (ip : IpAddr)
  | cname (name : Name)
  | mx (exchange : Name)
  | ns (name : Name)
  | ptr
  | other

structure Record (Name : Type) where
  name : Name
  recordType : RecordType
  data : Option (RData Name)

structure Query (Name : Type) where
  name : Name
  isIn : Bool
  queryType : RecordType

/-- An answer. The response code and the name servers are left out. -/
structure Message (Name : Type) where
  answers : List (Record Name)
  additionals : List (Record Name)

/-- The names of the servers are those that can be read as names. -/
structure DnsClient (Name : Type) where
  names : NameCrate Name
  crates : AclCrates
  servers : List (Option Name)
  acl : Option AccessControl

namespace DnsClient

variable {Name : Type} [DecidableEq Name] (client : DnsClient Name)

/-! ## By the question -/

def parseUnsigned (radix bound : Nat) (text : Text) : Option Nat := do
  let digits := if text.head? = some '+' then text.tail else text
  if digits.isEmpty then none
  else
    let number ← digits.foldlM (fun number char => do
      let digit ← if char.isDigit then some (char.toNat - 48)
        else if char.toLower.isLower then some (char.toLower.toNat - 87) else none
      if digit < radix then some (number * radix + digit) else none) 0
    if number < bound then some number else none

def ofBytes (bytes : List (BitVec 8)) : Option IpAddr :=
  if size : bytes.length = 4 ∨ bytes.length = 16 then some ⟨bytes, size⟩ else none

/-- The address that a name for reverse lookup stands for. Labels that are missing are zeros. -/
def ptrAddress (name : Name) : Option IpAddr :=
  let next (place : Nat) := (client.names.labels name).reverse.getD place ['0']
  if toAsciiLowercase (next 0) ≠ "arpa".toList then none
  else if toAsciiLowercase (next 1) = "in-addr".toList then do
    let octets ← (List.range 4).mapM fun place => parseUnsigned 10 256 (next (2 + place))
    ofBytes (octets.map (BitVec.ofNat 8))
  else if toAsciiLowercase (next 1) = "ip6".toList then do
    let segments ← (List.range 8).mapM fun place => parseUnsigned 16 65536
      ((List.range 4).flatMap fun digit => next (2 + 4 * place + digit))
    ofBytes (segments.flatMap fun segment =>
      [BitVec.ofNat 8 (segment / 256), BitVec.ofNat 8 segment])
  else none

def shouldForwardByPtrName (acl : AccessControl) (name : Name) : Bool :=
  ((client.ptrAddress name).map acl.checkIpInProxyList).getD acl.isDefaultInProxyList

def checkNameInProxyList (acl : AccessControl) (name : Name) : Option Bool :=
  if client.names.isFqdn name then
    acl.checkAsciiHostInProxyList client.crates (toAsciiLowercase (client.names.toAscii name))
  else some acl.isDefaultInProxyList

/-- Whether the server is to be asked, unless the question alone does not tell. -/
def shouldForwardByQuery (query : Query Name) : Option Bool :=
  if client.servers.isEmpty then some false
  else if some query.name ∈ client.servers then some false
  else
    match client.acl with
    | none => some true
    | some acl =>
        if !query.isIn then some acl.isDefaultInProxyList
        else if query.queryType = .ptr then some (client.shouldForwardByPtrName acl query.name)
        else
          match client.checkNameInProxyList acl query.name with
          | some value => some value
          | none =>
              if acl.isIpEmpty && acl.isHostEmpty then some acl.isDefaultInProxyList else none

/-! ## By the network's answer -/

/-- What examining a record comes to: a decision, or the names to go on with. A record for a
reverse lookup is not expected and stops the program. -/
inductive Examined (Name : Type) where
  | decided (forward : Bool)
  | next (names : List Name)
  | stopped

def examineRecord (acl : AccessControl) (query : Query Name) (isAnswer : Bool)
    (names : List Name) (record : Record Name) : Examined Name :=
  let check (name : Name) := if isAnswer then client.checkNameInProxyList acl name else none
  let go (forward : Bool) (names : List Name) : Examined Name :=
    if forward then .next names else .decided false
  match record.data with
  | some (.cname name) =>
      match check name with
      | some value => .decided value
      | none => .next (name :: names)
  | data =>
      if isAnswer && query.queryType ≠ .any && record.recordType ≠ query.queryType then
        .decided true
      else
        match data with
        | some (.address ip) => go (acl.checkIpInProxyList ip) names
        | some (.mx name) => go ((check name).getD acl.isDefaultInProxyList) (name :: names)
        | some (.ns name) => go ((check name).getD acl.isDefaultInProxyList) (name :: names)
        | some .ptr => .stopped
        | _ => go acl.isDefaultInProxyList names

/-- Answers are about the names seen so far; other additional records are passed by. -/
def examine (acl : AccessControl) (query : Query Name) (isAnswer : Bool) :
    List Name → List (Record Name) → Examined Name
  | names, [] => .next names
  | names, record :: rest =>
      if record.name ∈ names then
        match client.examineRecord acl query isAnswer names record with
        | .next names => examine acl query isAnswer names rest
        | result => result
      else if isAnswer then .decided true
      else examine acl query isAnswer names rest

/-- Whether the server's answer is to be used, by the network's answer. It is nothing if the
program stops. -/
def shouldForwardByResponse (acl : AccessControl) (query : Query Name) :
    Option (Message Name) → Option Bool
  | none => some true
  | some response =>
      match client.examine acl query true [query.name] response.answers with
      | .decided forward => some forward
      | .stopped => none
      | .next names =>
          match client.examine acl query false names response.additionals with
          | .decided forward => some forward
          | .stopped => none
          | .next _ => some true

/-! ## Both at once -/

inductive Side where
  | remote
  | network
  deriving DecidableEq

/-- Where a lookup stands: it waits for one of both, has picked an answer, which may be a
failure, or has stopped the program. -/
inductive Looked (Name : Type) where
  | racing (useRemote : Bool) (remoteResponse : Option (Option (Message Name)))
  | picked (response : Option (Message Name)) (forward : Bool)
  | stopped

def select (decision : Option Bool) (remote network : Option (Message Name)) :
    Looked Name → Side → Looked Name
  | .racing useRemote none, .remote =>
      if useRemote then .picked remote true else .racing useRemote (some remote)
  | .racing false remoteResponse, .network =>
      match decision, remoteResponse with
      | none, _ => .stopped
      | some false, _ => .picked network false
      | some true, some response => .picked response true
      | some true, none => .racing true none
  | looked, _ => looked

def decides (query : Query Name) (network : Option (Message Name)) : Option Bool :=
  match client.shouldForwardByQuery query, client.acl with
  | some forward, _ => some forward
  | none, some acl => client.shouldForwardByResponse acl query network
  | none, none => none

def aclLookup (query : Query Name) (remote network : Option (Message Name)) (order : List Side) :
    Looked Name :=
  match client.shouldForwardByQuery query with
  | some true => .picked remote true
  | some false => .picked network false
  | none => Machine.run (select (client.decides query network) remote network)
      (.racing false none) order

def settled (decision : Option Bool) (remote network : Option (Message Name)) : Looked Name :=
  match decision with
  | none => .stopped
  | some false => .picked network false
  | some true => .picked remote true

inductive Progress (decision : Option Bool) (remote network : Option (Message Name)) :
    List Side → Looked Name → Prop
  | start {order : List Side} (noRemote : .remote ∉ order) (noNetwork : .network ∉ order) :
      Progress decision remote network order (.racing false none)
  | early {order : List Side} (noNetwork : .network ∉ order) :
      Progress decision remote network order (.racing false (some remote))
  | late {order : List Side} (noRemote : .remote ∉ order) (decided : decision = some true) :
      Progress decision remote network order (.racing true none)
  | done {order : List Side} :
      Progress decision remote network order (settled decision remote network)

theorem progress_select {decision : Option Bool} {remote network : Option (Message Name)}
    {order : List Side} {looked : Looked Name}
    (progress : Progress decision remote network order looked) (side : Side) :
    Progress decision remote network (order ++ [side])
      (select decision remote network looked side) := by
  cases progress with
  | start noRemote noNetwork =>
      cases side with
      | remote => exact .early (by simp [noNetwork])
      | network =>
          match decision with
          | none => exact .done
          | some false => exact .done
          | some true => exact .late (by simp [noRemote]) rfl
  | early noNetwork =>
      cases side with
      | remote => exact .early (by simp [noNetwork])
      | network =>
          match decision with
          | none => exact .done
          | some false => exact .done
          | some true => exact .done
  | late noRemote decided =>
      cases side with
      | remote =>
          subst decided
          exact .done
      | network => exact .late (by simp [noRemote]) decided
  | done =>
      have kept : select decision remote network (settled decision remote network) side =
          settled decision remote network := by
        match decision with
        | none => rfl
        | some false => rfl
        | some true => rfl
      rw [kept]
      exact .done

theorem progress_run (decision : Option Bool) (remote network : Option (Message Name))
    (order : List Side) :
    Progress decision remote network order
      (Machine.run (select decision remote network) (.racing false none) order) := by
  induction order using List.reverseRecOn with
  | nil => exact .start List.not_mem_nil List.not_mem_nil
  | append_singleton order side ih =>
      rw [Machine.run_concat]
      exact progress_select ih side

theorem settled_of_both {decision : Option Bool} {remote network : Option (Message Name)}
    {order : List Side} (remoteCame : .remote ∈ order) (networkCame : .network ∈ order) :
    Machine.run (select decision remote network) (.racing false none) order =
      settled decision remote network := by
  have progress := progress_run decision remote network order
  generalize Machine.run (select decision remote network) (.racing false none) order = looked
    at progress
  cases progress with
  | start noRemote _ => exact absurd remoteCame noRemote
  | early noNetwork => exact absurd networkCame noNetwork
  | late noRemote _ => exact absurd remoteCame noRemote
  | done => rfl

theorem aclLookup_eq {query : Query Name} {remote network : Option (Message Name)}
    {order : List Side} (remoteCame : .remote ∈ order) (networkCame : .network ∈ order) :
    client.aclLookup query remote network order =
      settled (client.decides query network) remote network := by
  unfold aclLookup
  cases asked : client.shouldForwardByQuery query with
  | some forward =>
      rw [decides, asked]
      cases forward <;> rfl
  | none => exact settled_of_both remoteCame networkCame

/-- Whichever comes back first, the same answer is picked. As long as none is, there is
something left to wait for. -/
theorem race_settles (decision : Option Bool) (remote network : Option (Message Name))
    (order : List Side) :
    let looked := Machine.run (select decision remote network) (.racing false none) order
    (looked = settled decision remote network ∨
      ∃ useRemote response, looked = .racing useRemote response ∧
        (useRemote = true → response = none)) ∧
    (.remote ∈ order → .network ∈ order → looked = settled decision remote network) := by
  refine ⟨?_, settled_of_both⟩
  have progress := progress_run decision remote network order
  generalize Machine.run (select decision remote network) (.racing false none) order = looked
    at progress
  cases progress with
  | start _ _ => exact Or.inr ⟨_, _, rfl, fun _ => rfl⟩
  | early _ => exact Or.inr ⟨_, _, rfl, fun late => (by cases late)⟩
  | late _ _ => exact Or.inr ⟨_, _, rfl, fun _ => rfl⟩
  | done => exact Or.inl rfl

/-! ## Remembered addresses -/

abbrev ReverseLookupCache := List (IpAddr × Bool)

/-- An address is remembered if the networks say otherwise about it. -/
def addToReverseLookupCache (forward : Bool) (cache : ReverseLookupCache) (ip : IpAddr) :
    ReverseLookupCache :=
  let isException := forward != (client.acl.map (·.checkIpInProxyList ip)).getD true
  match LinkedMap.get ip cache with
  | some _ => if isException then LinkedMap.put ip forward cache else LinkedMap.remove ip cache
  | none => if isException then LinkedMap.put ip forward cache else cache

def checkTargetBypassed (cache : ReverseLookupCache)
    (resolve : Text → UInt16 → Option (List IpAddr)) (address : Address) : Bool :=
  match client.acl, address with
  | none, _ => false
  | some acl, .socketAddress socket =>
      match LinkedMap.get (AccessControl.ipOf socket) cache with
      | some forward => !forward
      | none => acl.checkTargetBypassed client.crates resolve address
  | some acl, _ => acl.checkTargetBypassed client.crates resolve address

def addresses (response : Message Name) : List IpAddr :=
  response.answers.filterMap fun record => match record.data with
    | some (.address ip) => some ip
    | _ => none

structure Request (Name : Type) where
  recursionDesired : Bool
  isQuery : Bool
  queries : List (Query Name)
  remote : Option (Message Name)
  network : Option (Message Name)
  order : List Side

def lookup (request : Request Name) : Option (Looked Name) :=
  if request.recursionDesired && request.isQuery then
    request.queries.head?.map fun query =>
      client.aclLookup query request.remote request.network request.order
  else none

/-- What a request leaves in the cache. -/
def resolve (cache : ReverseLookupCache) (request : Request Name) : ReverseLookupCache :=
  match client.lookup request with
  | some (.picked (some response) forward) =>
      (addresses response).foldl (client.addToReverseLookupCache forward) cache
  | _ => cache

/-- Old entries are dropped, and some if there are too many. -/
inductive RelayEvent (Name : Type) where
  | resolve (request : Request Name)
  | drop (ip : IpAddr)

def step (cache : ReverseLookupCache) : RelayEvent Name → ReverseLookupCache
  | .resolve request => client.resolve cache request
  | .drop ip => LinkedMap.remove ip cache

/-- For every address, which way the last answer with it went, unless it has been dropped
since then. -/
def recalled (memory : IpAddr → Option Bool) : RelayEvent Name → IpAddr → Option Bool
  | .resolve request, ip =>
      match client.lookup request with
      | some (.picked (some response) forward) =>
          if ip ∈ addresses response then some forward else memory ip
      | _ => memory ip
  | .drop other, ip => if ip = other then none else memory ip

section Remembered

variable {client} {acl : AccessControl}

theorem getD_add (isSet : client.acl = some acl) (forward : Bool) (cache : ReverseLookupCache)
    (ip other : IpAddr) :
    (LinkedMap.get ip (client.addToReverseLookupCache forward cache other)).getD
        (acl.checkIpInProxyList ip) =
      if ip = other then forward
      else (LinkedMap.get ip cache).getD (acl.checkIpInProxyList ip) := by
  unfold addToReverseLookupCache
  rw [isSet]
  by_cases same : ip = other
  · subst same
    rw [if_pos rfl]
    cases found : LinkedMap.get ip cache <;> by_cases none : forward = acl.checkIpInProxyList ip
    all_goals simp [none, found, LinkedMap.get_put_self, LinkedMap.get_remove_self]
  · rw [if_neg same]
    cases LinkedMap.get other cache <;> by_cases none : forward = acl.checkIpInProxyList other
    all_goals simp [none, LinkedMap.get_put_other same, LinkedMap.get_remove_other same]

theorem getD_foldl_add (isSet : client.acl = some acl) (forward : Bool) (ips : List IpAddr)
    (cache : ReverseLookupCache) (ip : IpAddr) :
    (LinkedMap.get ip (ips.foldl (client.addToReverseLookupCache forward) cache)).getD
        (acl.checkIpInProxyList ip) =
      if ip ∈ ips then forward else (LinkedMap.get ip cache).getD (acl.checkIpInProxyList ip) := by
  induction ips generalizing cache with
  | nil => simp
  | cons other rest ih =>
      rw [List.foldl_cons, ih, getD_add isSet]
      by_cases same : ip = other <;> simp [same]

/-- What is remembered and the networks together say the same, before and after an event. -/
theorem recalled_step (isSet : client.acl = some acl) {cache : ReverseLookupCache}
    {memory : IpAddr → Option Bool}
    (agree : ∀ ip, (LinkedMap.get ip cache).getD (acl.checkIpInProxyList ip) =
      (memory ip).getD (acl.checkIpInProxyList ip)) (event : RelayEvent Name) (ip : IpAddr) :
    (LinkedMap.get ip (client.step cache event)).getD (acl.checkIpInProxyList ip) =
      (client.recalled memory event ip).getD (acl.checkIpInProxyList ip) := by
  cases event with
  | resolve request =>
      simp only [step, resolve, recalled]
      split
      · rw [getD_foldl_add isSet, agree]
        split <;> rfl
      · exact agree ip
  | drop other =>
      simp only [step, recalled]
      by_cases same : ip = other
      · rw [if_pos same, same, LinkedMap.get_remove_self]
      · rw [if_neg same, LinkedMap.get_remove_other same, agree]

theorem recalled_run (isSet : client.acl = some acl) (events : List (RelayEvent Name))
    (ip : IpAddr) :
    (LinkedMap.get ip (Machine.run client.step [] events)).getD (acl.checkIpInProxyList ip) =
      (Machine.run client.recalled (fun _ => none) events ip).getD (acl.checkIpInProxyList ip) := by
  induction events using List.reverseRecOn generalizing ip with
  | nil => rfl
  | append_singleton events event ih =>
      rw [Machine.run_concat, Machine.run_concat]
      exact recalled_step isSet ih event ip

theorem checkTargetBypassed_eq (isSet : client.acl = some acl) (cache : ReverseLookupCache)
    (resolve : Text → UInt16 → Option (List IpAddr)) (socket : SocketAddr) :
    client.checkTargetBypassed cache resolve (.socketAddress socket) =
      !(LinkedMap.get (AccessControl.ipOf socket) cache).getD
        (acl.checkIpInProxyList (AccessControl.ipOf socket)) := by
  simp only [checkTargetBypassed, isSet]
  cases LinkedMap.get (AccessControl.ipOf socket) cache <;> rfl

/-- The entries of a cache that are exceptions: the networks say otherwise about the
address. -/
def Exceptions (acl : AccessControl) (cache : ReverseLookupCache) : Prop :=
  ∀ ip forward, (ip, forward) ∈ cache → forward ≠ acl.checkIpInProxyList ip

theorem Exceptions.put {cache : ReverseLookupCache} (exceptions : Exceptions acl cache)
    {ip : IpAddr} {forward : Bool} (differs : forward ≠ acl.checkIpInProxyList ip) :
    Exceptions acl (LinkedMap.put ip forward cache) := by
  intro other way member
  rcases LinkedMap.mem_put member with before | ⟨rfl, rfl⟩
  · exact exceptions other way before
  · exact differs

theorem Exceptions.remove {cache : ReverseLookupCache} (exceptions : Exceptions acl cache)
    (ip : IpAddr) : Exceptions acl (LinkedMap.remove ip cache) :=
  fun other way member => exceptions other way (List.mem_filter.mp member).1

theorem Exceptions.add {cache : ReverseLookupCache} (exceptions : Exceptions acl cache)
    (isSet : client.acl = some acl) (forward : Bool) (ip : IpAddr) :
    Exceptions acl (client.addToReverseLookupCache forward cache ip) := by
  unfold addToReverseLookupCache
  rw [isSet]
  by_cases none : forward = acl.checkIpInProxyList ip
  · cases LinkedMap.get ip cache <;> simp [none, exceptions, exceptions.remove ip]
  · cases LinkedMap.get ip cache <;> simp [none, exceptions.put none]

theorem Exceptions.step {cache : ReverseLookupCache} (exceptions : Exceptions acl cache)
    (isSet : client.acl = some acl) (event : RelayEvent Name) :
    Exceptions acl (client.step cache event) := by
  cases event with
  | resolve request =>
      simp only [DnsClient.step, resolve]
      split
      next response forward _ =>
        induction addresses response generalizing cache with
        | nil => exact exceptions
        | cons ip rest ih => exact ih (exceptions.add isSet forward ip)
      next => exact exceptions
  | drop ip => exact exceptions.remove ip

/-- Only exceptions are remembered, and yet every connection goes the way of the last answer
that had its address, or by the networks if there was none or it has been dropped. -/
theorem remembers_every_answer (isSet : client.acl = some acl) (events : List (RelayEvent Name)) :
    Exceptions acl (Machine.run client.step [] events) ∧
    ∀ (resolve : Text → UInt16 → Option (List IpAddr)) (socket : SocketAddr),
      client.checkTargetBypassed (Machine.run client.step [] events) resolve
          (.socketAddress socket) =
        !(Machine.run client.recalled (fun _ => none) events (AccessControl.ipOf socket)).getD
          (acl.checkIpInProxyList (AccessControl.ipOf socket)) := by
  refine ⟨?_, ?_⟩
  · exact Machine.run_invariant (fun _ event exceptions => exceptions.step isSet event)
      (fun _ _ member => nomatch member) events
  · intro resolve socket
    rw [checkTargetBypassed_eq isSet, recalled_run isSet]

/-- Connections go the way of their name. Whatever happened before and whichever lookup comes
back first: a question that is decided for the server, or for the network, gets the answer of
that side, and a connection to an address of the answer then goes the same way. -/
theorem connections_follow_the_name (isSet : client.acl = some acl)
    (events : List (RelayEvent Name)) {query : Query Name} {remote network : Option (Message Name)}
    {order : List Side} (remoteCame : .remote ∈ order) (networkCame : .network ∈ order)
    {forward : Bool} (decided : client.decides query network = some forward)
    {response : Message Name} (answer : (if forward then remote else network) = some response)
    {socket : SocketAddr} (listed : AccessControl.ipOf socket ∈ addresses response)
    (resolve : Text → UInt16 → Option (List IpAddr)) :
    client.aclLookup query remote network order = .picked (some response) forward ∧
    client.checkTargetBypassed (Machine.run client.step [] (events ++
        [.resolve ⟨true, true, [query], remote, network, order⟩])) resolve
      (.socketAddress socket) = !forward := by
  have picked : client.aclLookup query remote network order =
      .picked (some response) forward := by
    rw [client.aclLookup_eq remoteCame networkCame, decided, ← answer]
    cases forward <;> rfl
  refine ⟨picked, ?_⟩
  rw [checkTargetBypassed_eq isSet, Machine.run_concat]
  simp only [step, DnsClient.resolve, lookup, Bool.and_self, if_true, List.head?_cons,
    Option.map_some, picked]
  rw [getD_foldl_add isSet, if_pos listed]

end Remembered

def smallAcl : AccessControl :=
  .ofRules (fun target => if target = .proxy then
    [.set ['a'], .network (hostNet AccessControl.plainIp)] else []) true

def smallClient : DnsClient Text where
  names := ⟨fun _ => true, id, fun _ => []⟩
  crates := AccessControl.plainCrates
  servers := [none]
  acl := some smallAcl

def smallSocket : SocketAddr := .v4 ⟨1, 80⟩

def smallQuery (name : Text) : Query Text := ⟨name, true, .a⟩

def smallAnswer (name : Text) (ip : IpAddr) : Message Text := ⟨[⟨name, .a, some (.address ip)⟩], []⟩

theorem remembers_every_answer_name :
    Exceptions smallAcl (Machine.run smallClient.step [] [.resolve ⟨true, true, [smallQuery ['a']],
      some (smallAnswer ['a'] (AccessControl.ipOf smallSocket)), none, []⟩]) ∧
    smallClient.checkTargetBypassed (Machine.run smallClient.step []
      [.resolve ⟨true, true, [smallQuery ['a']],
        some (smallAnswer ['a'] (AccessControl.ipOf smallSocket)), none, []⟩]) (fun _ _ => none)
      (.socketAddress smallSocket) = false := by
  refine ⟨(remembers_every_answer rfl _).1, ?_⟩
  rw [(remembers_every_answer rfl _).2]
  decide +kernel

/-- No rule is about the name `b`. The network answers with an address that goes through the
server, so that the server's answer is picked. -/
theorem connections_follow_the_name_network :
    let remote := smallAnswer ['b'] (AccessControl.ipOf smallSocket)
    let network := smallAnswer ['b'] AccessControl.plainIp
    smallClient.shouldForwardByQuery (smallQuery ['b']) = none ∧
    smallClient.aclLookup (smallQuery ['b']) (some remote) (some network) [.network, .remote] =
        .picked (some remote) true ∧
      smallClient.checkTargetBypassed (Machine.run smallClient.step [] ([] ++ [.resolve
          ⟨true, true, [smallQuery ['b']], some remote, some network, [.network, .remote]⟩]))
        (fun _ _ => none) (.socketAddress smallSocket) = false :=
  have decided : smallClient.decides (smallQuery ['b'])
      (some (smallAnswer ['b'] AccessControl.plainIp)) = some true := by decide +kernel
  ⟨by decide +kernel,
    connections_follow_the_name rfl [] (by decide) (by decide) decided rfl List.mem_cons_self _⟩

end DnsClient

end AlienConnection.Native
