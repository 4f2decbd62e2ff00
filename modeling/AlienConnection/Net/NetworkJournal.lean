import AlienConnection.Library.Machine
import AlienConnection.Net.DefaultNetworkListener
import Mathlib.Data.List.Nodup

/-!
# What listeners and requests are told

A journal goes along with the actor and records, for every key, the calls made since
its listener was entered, the requests made, and every answer together with the
network that the actor held then. Over every sequence of messages the listeners know
the actor's network, and every request waits or has been answered once.
-/

namespace AlienConnection.Net

open Library

namespace NetworkActor

variable {κ : Type} [DecidableEq κ]

inductive Handles (actor : NetworkActor κ) :
    NetworkMessage κ → NetworkActor κ → List NetworkCall → Prop where
  | enters (key : κ) (listener : Nat) (none : actor.network = none) :
      Handles actor (.start key listener)
        { actor with
          registered := actor.registered || actor.listeners.isEmpty
          listeners := LinkedMap.put key listener actor.listeners } []
  | tells (key : κ) (listener : Nat) (network : Network) (held : actor.network = some network) :
      Handles actor (.start key listener)
        { actor with
          registered := actor.registered || actor.listeners.isEmpty
          listeners := LinkedMap.put key listener actor.listeners }
        [.notify listener actor.network]
  | waits (request : Nat) (none : actor.network = none) :
      Handles actor (.get request)
        { actor with pendingRequests := actor.pendingRequests ++ [request] } []
  | answers (request : Nat) (network : Network) (held : actor.network = some network) :
      Handles actor (.get request) actor [.complete request network]
  | removes (key : κ) (remaining : LinkedMap.remove key actor.listeners ≠ []) :
      Handles actor (.stop key)
        { actor with listeners := LinkedMap.remove key actor.listeners } []
  | empties (key : κ) (remaining : LinkedMap.remove key actor.listeners = []) :
      Handles actor (.stop key)
        { actor with listeners := [], network := none, registered := false } []
  | puts (network : Network) :
      Handles actor (.put network)
        { actor with network := some network, pendingRequests := [] }
        (actor.pendingRequests.map (fun request => .complete request network) ++
          actor.notifyAll (some network))
  | refreshes (network : Network) (held : actor.network = some network) :
      Handles actor (.update network) actor (actor.notifyAll actor.network)
  | loses (network : Network) (held : actor.network = some network) :
      Handles actor (.lost network) { actor with network := none } (actor.notifyAll none)
  | ignoresStop (key : κ) (empty : actor.listeners = []) : Handles actor (.stop key) actor []
  | ignoresUpdate (network : Network) : Handles actor (.update network) actor []
  | ignoresLost (network : Network) : Handles actor (.lost network) actor []

def calling (actor : NetworkActor κ) (fresh : List NetworkCall) : NetworkActor κ :=
  { actor with calls := actor.calls ++ fresh }

omit [DecidableEq κ] in
@[simp]
theorem calling_nil (actor : NetworkActor κ) : actor.calling [] = actor := by
  simp [calling]

theorem handles_of_receive {actor next : NetworkActor κ} {message : NetworkMessage κ}
    (handled : actor.receive message = some next) :
    ∃ changed fresh, actor.Handles message changed fresh ∧ next = changed.calling fresh ∧
      changed.calls = actor.calls := by
  cases message with
  | start key listener =>
      cases held : actor.network with
      | none =>
          simp only [receive, held, List.append_nil, Option.some.injEq] at handled
          refine ⟨_, _, .enters key listener held, ?_, rfl⟩
          rw [← handled, calling_nil, held]
      | some network =>
          simp only [receive, held, Option.some.injEq] at handled
          refine ⟨_, _, .tells key listener network held, ?_, rfl⟩
          rw [← handled, calling, held]
  | get request =>
      rw [receive] at handled
      split at handled
      · cases handled
      · cases held : actor.network with
        | none =>
            simp only [held, Option.some.injEq] at handled
            refine ⟨_, _, .waits request held, ?_, rfl⟩
            rw [← handled, calling_nil, held]
        | some network =>
            simp only [held, Option.some.injEq] at handled
            refine ⟨_, _, .answers request network held, ?_, rfl⟩
            rw [← handled, calling, held]
  | stop key =>
      rw [receive] at handled
      split at handled
      next empty =>
        cases handled
        exact ⟨_, _, .ignoresStop key (List.isEmpty_iff.mp empty), (calling_nil _).symm, rfl⟩
      next filled =>
        split at handled
        next absent =>
          cases handled
          have remaining : LinkedMap.remove key actor.listeners ≠ [] := by
            rw [LinkedMap.remove_of_not_mem (LinkedMap.get_eq_none_iff.mp absent)]
            exact fun empty => filled (List.isEmpty_iff.mpr empty)
          exact ⟨_, _, .removes key remaining, (calling_nil _).symm, rfl⟩
        next =>
          dsimp only at handled
          split at handled
          next emptied =>
            cases handled
            rw [List.isEmpty_iff.mp emptied]
            exact ⟨_, _, .empties key (List.isEmpty_iff.mp emptied), (calling_nil _).symm, rfl⟩
          next remaining =>
            cases handled
            exact ⟨_, _, .removes key (fun empty => remaining (List.isEmpty_iff.mpr empty)),
              (calling_nil _).symm, rfl⟩
  | put network =>
      cases handled
      refine ⟨_, _, .puts network, ?_, rfl⟩
      rw [calling, List.append_assoc]
  | update network =>
      rw [receive] at handled
      split at handled
      next held =>
        cases handled
        exact ⟨_, _, .refreshes network held, rfl, rfl⟩
      next =>
        cases handled
        exact ⟨_, _, .ignoresUpdate network, (calling_nil _).symm, rfl⟩
  | lost network =>
      rw [receive] at handled
      split at handled
      next held =>
        cases handled
        exact ⟨_, _, .loses network held, rfl, rfl⟩
      next =>
        cases handled
        exact ⟨_, _, .ignoresLost network, (calling_nil _).symm, rfl⟩

end NetworkActor

/-! ## Calls -/

def passedFrom (listener : Nat) (value : Option Network) (calls : List NetworkCall) :
    Option Network :=
  calls.foldl (fun value call =>
    match call with
    | .notify target network => if target = listener then network else value
    | .complete _ _ => value) value

def lastPassed (listener : Nat) (calls : List NetworkCall) : Option Network :=
  passedFrom listener none calls

/-- An answer, with the network that the actor held when it was given. -/
structure Answer where
  request : Nat
  network : Network
  current : Option Network

def answersOf (current : Option Network) (calls : List NetworkCall) : List Answer :=
  calls.filterMap (fun call =>
    match call with
    | .notify _ _ => none
    | .complete request network => some ⟨request, network, current⟩)

theorem lastPassed_append (listener : Nat) (first second : List NetworkCall) :
    lastPassed listener (first ++ second) =
      passedFrom listener (lastPassed listener first) second :=
  List.foldl_append

theorem passedFrom_completes (listener : Nat) (value : Option Network) (requests : List Nat)
    (network : Network) (rest : List NetworkCall) :
    passedFrom listener value (requests.map (fun request => .complete request network) ++ rest) =
      passedFrom listener value rest := by
  induction requests with
  | nil => rfl
  | cons request requests ih => exact ih

/-- One value is passed to several listeners. -/
theorem passedFrom_notifies {κ : Type} (listener : Nat) (value network : Option Network)
    (entries : List (κ × Nat)) :
    passedFrom listener value (entries.map (fun entry => .notify entry.2 network)) =
      if listener ∈ entries.map Prod.snd then network else value := by
  induction entries generalizing value with
  | nil => rfl
  | cons entry entries ih =>
      rw [List.map_cons, passedFrom, List.foldl_cons, ← passedFrom, ih, List.map_cons]
      by_cases here : entry.2 = listener
      · simp [here]
      · have later : listener ∈ entry.2 :: entries.map Prod.snd ↔
            listener ∈ entries.map Prod.snd := by
          rw [List.mem_cons]
          exact or_iff_right (fun same => here same.symm)
        simp only [if_neg here, later]

theorem answersOf_notifies {κ : Type} (current network : Option Network)
    (entries : List (κ × Nat)) :
    answersOf current (entries.map (fun entry => .notify entry.2 network)) = [] := by
  rw [answersOf, List.filterMap_map, List.filterMap_eq_nil_iff]
  intro entry _
  rfl

theorem answersOf_completes (current : Option Network) (requests : List Nat)
    (network : Network) :
    answersOf current (requests.map (fun request => .complete request network)) =
      requests.map (fun request => ⟨request, network, current⟩) := by
  induction requests with
  | nil => rfl
  | cons request requests ih => exact congrArg (List.cons _) ih

def answersTo (request : Nat) (answers : List Answer) : List Answer :=
  answers.filter (fun answer => answer.request = request)

theorem answersTo_append (request : Nat) (first second : List Answer) :
    answersTo request (first ++ second) = answersTo request first ++ answersTo request second :=
  List.filter_append _ _

theorem answersTo_eq_nil {request : Nat} {answers : List Answer}
    (apart : ∀ answer ∈ answers, answer.request ≠ request) : answersTo request answers = [] := by
  rw [answersTo, List.filter_eq_nil_iff]
  intro answer member
  simpa using apart answer member

/-- Different requests get one answer each. -/
theorem answersTo_map {request : Nat} {requests : List Nat} (distinct : requests.Nodup)
    (member : request ∈ requests) (network : Network) (current : Option Network) :
    answersTo request (requests.map (fun request => ⟨request, network, current⟩)) =
      [⟨request, network, current⟩] := by
  induction requests with
  | nil => cases member
  | cons first rest ih =>
      obtain ⟨absent, distinctRest⟩ := List.nodup_cons.mp distinct
      rw [List.map_cons, ← List.singleton_append, answersTo_append]
      rcases List.mem_cons.mp member with rfl | later
      · have others : answersTo request
            (rest.map (fun request => ⟨request, network, current⟩)) = [] := by
          apply answersTo_eq_nil
          intro answer answered
          obtain ⟨other, otherMember, rfl⟩ := List.mem_map.mp answered
          exact fun same => absent (same ▸ otherMember)
        rw [others]
        simp [answersTo]
      · have differs : first ≠ request := by
          rintro rfl
          exact absent later
        rw [ih distinctRest later, answersTo_eq_nil]
        · rfl
        · intro answer answered
          rw [List.mem_singleton.mp answered]
          exact differs

/-! ## The journal -/

section

variable {κ : Type} [DecidableEq κ]

def NetworkMessage.enters : NetworkMessage κ → Option κ
  | .start key _ => some key
  | _ => none

def NetworkMessage.asks : NetworkMessage κ → List Nat
  | .get request => [request]
  | _ => []

structure Journal (κ : Type) where
  actor : NetworkActor κ := {}
  since : κ → List NetworkCall := fun _ => []
  gets : List Nat := []
  answers : List Answer := []

namespace Journal

def extend (journal : Journal κ) (message : NetworkMessage κ) (actor : NetworkActor κ)
    (fresh : List NetworkCall) : Journal κ where
  actor := actor
  since := fun key => if message.enters = some key then fresh else journal.since key ++ fresh
  gets := journal.gets ++ message.asks
  answers := journal.answers ++ answersOf actor.network fresh

def receive (journal : Journal κ) (message : NetworkMessage κ) : Option (Journal κ) :=
  (journal.actor.receive message).map (fun next =>
    journal.extend message next (next.calls.drop journal.actor.calls.length))

def run (messages : List (NetworkMessage κ)) : Option (Journal κ) :=
  messages.foldlM receive {}

/-- A request waits, or was answered once with the network current then. -/
def Settled (journal : Journal κ) (request : Nat) : Prop :=
  (request ∈ journal.actor.pendingRequests ∧ answersTo request journal.answers = []) ∨
    (request ∉ journal.actor.pendingRequests ∧
      ∃ network, answersTo request journal.answers = [⟨request, network, some network⟩])

def Informed (journal : Journal κ) : Prop :=
  ∀ key listener, LinkedMap.get key journal.actor.listeners = some listener →
    lastPassed listener (journal.since key) = journal.actor.network

structure Consistent (journal : Journal κ) : Prop where
  watching : journal.actor.Watching
  informed : journal.Informed
  waiting : journal.actor.pendingRequests ≠ [] → journal.actor.network = none
  settled : ∀ request ∈ journal.gets, journal.Settled request

structure Accounted (journal : Journal κ) : Prop where
  waiting : ∀ request ∈ journal.actor.pendingRequests, request ∈ journal.gets
  distinct : journal.actor.pendingRequests.Nodup
  answered : ∀ answer ∈ journal.answers, answer.request ∈ journal.gets

variable {journal next : Journal κ} {message : NetworkMessage κ}

/-- One message, with the calls that it makes. -/
theorem receive_cases (received : journal.receive message = some next) :
    ∃ changed fresh, journal.actor.Handles message changed fresh ∧
      next = journal.extend message (changed.calling fresh) fresh := by
  obtain ⟨actor, handled, same⟩ := Option.map_eq_some_iff.mp received
  obtain ⟨changed, fresh, handles, rfl, calls⟩ := NetworkActor.handles_of_receive handled
  refine ⟨changed, fresh, handles, ?_⟩
  rw [← same]
  simp only [NetworkActor.calling, calls, List.drop_left]

/-! ## Listeners -/

/-- A listener that was there before learns what the new calls say. -/
theorem Informed.after (informed : journal.Informed) (message : NetworkMessage κ)
    (actor : NetworkActor κ) {key : κ} {listener : Nat} {fresh : List NetworkCall}
    (other : message.enters ≠ some key)
    (before : LinkedMap.get key journal.actor.listeners = some listener)
    (passed : passedFrom listener journal.actor.network fresh = actor.network) :
    lastPassed listener ((journal.extend message actor fresh).since key) = actor.network := by
  have later : (journal.extend message actor fresh).since key = journal.since key ++ fresh :=
    if_neg other
  rw [later, lastPassed_append, informed key listener before, passed]

theorem passedFrom_notifyAll {actor : NetworkActor κ} {key : κ} {listener : Nat}
    (entered : LinkedMap.get key actor.listeners = some listener)
    (value network : Option Network) :
    passedFrom listener value (actor.notifyAll network) = network := by
  have member : listener ∈ actor.listeners.map Prod.snd :=
    List.mem_map.mpr ⟨_, LinkedMap.mem_of_get entered, rfl⟩
  rw [NetworkActor.notifyAll, passedFrom_notifies, if_pos member]

/-- The listeners keep knowing the network. -/
theorem Informed.receive (informed : journal.Informed)
    (received : journal.receive message = some next) : next.Informed := by
  obtain ⟨changed, fresh, handles, rfl⟩ := receive_cases received
  intro key listener entered
  have notEntered : (none : Option κ) ≠ some key := fun absurdity => nomatch absurdity
  cases handles with
  | enters started newListener held =>
      by_cases same : started = key
      · subst same
        simpa [extend, NetworkMessage.enters, NetworkActor.calling, lastPassed, passedFrom] using
          held.symm
      · have other : some started ≠ some key := fun eq => same (Option.some.inj eq)
        have before : LinkedMap.get key journal.actor.listeners = some listener :=
          (LinkedMap.get_put_other (fun eq => same eq.symm) _ _).symm.trans entered
        exact informed.after (.start started newListener) _ other before rfl
  | tells started newListener network held =>
      by_cases same : started = key
      · subst same
        have itself : newListener = listener :=
          Option.some.inj ((LinkedMap.get_put_self _ _ _).symm.trans entered)
        simp [extend, NetworkMessage.enters, NetworkActor.calling, lastPassed, passedFrom, itself]
      · have other : some started ≠ some key := fun eq => same (Option.some.inj eq)
        have before : LinkedMap.get key journal.actor.listeners = some listener :=
          (LinkedMap.get_put_other (fun eq => same eq.symm) _ _).symm.trans entered
        apply informed.after (.start started newListener) _ other before
        simp [passedFrom, NetworkActor.calling]
  | waits request held => exact informed.after (.get request) _ notEntered entered rfl
  | answers request network held => exact informed.after (.get request) _ notEntered entered rfl
  | removes stopped remaining =>
      exact informed.after (.stop stopped) _ notEntered (LinkedMap.get_of_get_remove entered) rfl
  | empties stopped remaining => cases entered
  | puts network =>
      apply informed.after (.put network) _ notEntered entered
      rw [passedFrom_completes]
      exact passedFrom_notifyAll entered _ _
  | refreshes network held =>
      exact informed.after (.update network) _ notEntered entered
        (passedFrom_notifyAll entered _ _)
  | loses network held =>
      exact informed.after (.lost network) _ notEntered entered (passedFrom_notifyAll entered _ _)
  | ignoresStop stopped empty => exact informed.after (.stop stopped) _ notEntered entered rfl
  | ignoresUpdate network => exact informed.after (.update network) _ notEntered entered rfl
  | ignoresLost network => exact informed.after (.lost network) _ notEntered entered rfl

/-! ## Requests -/

inductive Requests (journal next : Journal κ) : Prop where
  | quiet (pending : next.actor.pendingRequests = journal.actor.pendingRequests)
      (gets : next.gets = journal.gets) (answers : next.answers = journal.answers)
      (network : next.actor.network = journal.actor.network ∨ next.actor.network = none)
  | waits (request : Nat)
      (pending : next.actor.pendingRequests = journal.actor.pendingRequests ++ [request])
      (gets : next.gets = journal.gets ++ [request]) (answers : next.answers = journal.answers)
      (network : next.actor.network = none)
  | answered (request : Nat) (network : Network)
      (pending : next.actor.pendingRequests = journal.actor.pendingRequests)
      (gets : next.gets = journal.gets ++ [request])
      (answers : next.answers = journal.answers ++ [⟨request, network, some network⟩])
      (same : next.actor.network = journal.actor.network)
  | put (network : Network) (pending : next.actor.pendingRequests = [])
      (gets : next.gets = journal.gets)
      (answers : next.answers = journal.answers ++
        journal.actor.pendingRequests.map (fun request => ⟨request, network, some network⟩))

theorem requests_of_receive (received : journal.receive message = some next) :
    Requests journal next := by
  obtain ⟨changed, fresh, handles, rfl⟩ := receive_cases received
  have quiet : ∀ calls, answersOf changed.network calls = [] →
      journal.answers ++ answersOf changed.network calls = journal.answers := by
    intro calls none
    rw [none, List.append_nil]
  have nobody : journal.gets ++ [] = journal.gets := List.append_nil _
  cases handles with
  | enters key listener held => exact .quiet rfl nobody (quiet _ rfl) (Or.inl rfl)
  | tells key listener network held => exact .quiet rfl nobody (quiet _ rfl) (Or.inl rfl)
  | waits request held => exact .waits request rfl rfl (quiet _ rfl) held
  | answers request network held =>
      refine .answered request network rfl rfl ?_ rfl
      rw [← held]
      rfl
  | removes key remaining => exact .quiet rfl nobody (quiet _ rfl) (Or.inl rfl)
  | empties key remaining => exact .quiet rfl nobody (quiet _ rfl) (Or.inr rfl)
  | puts network =>
      refine .put network rfl nobody ?_
      have answers : answersOf (some network)
          (journal.actor.pendingRequests.map (fun request => .complete request network) ++
            journal.actor.notifyAll (some network)) =
          journal.actor.pendingRequests.map
            (fun request => ⟨request, network, some network⟩) := by
        rw [answersOf, List.filterMap_append, ← answersOf, ← answersOf, answersOf_completes,
          NetworkActor.notifyAll, answersOf_notifies, List.append_nil]
      exact congrArg (journal.answers ++ ·) answers
  | refreshes network held =>
      exact .quiet rfl nobody (quiet _ (answersOf_notifies _ _ _)) (Or.inl rfl)
  | loses network held =>
      exact .quiet rfl nobody (quiet _ (answersOf_notifies _ _ _)) (Or.inr rfl)
  | ignoresStop key empty => exact .quiet rfl nobody (quiet _ rfl) (Or.inl rfl)
  | ignoresUpdate network => exact .quiet rfl nobody (quiet _ rfl) (Or.inl rfl)
  | ignoresLost network => exact .quiet rfl nobody (quiet _ rfl) (Or.inl rfl)

omit [DecidableEq κ] in
theorem Requests.accounted (requests : Requests journal next) (accounted : journal.Accounted)
    (distinct : next.gets.Nodup) : next.Accounted := by
  cases requests with
  | quiet pending gets answers network =>
      refine ⟨?_, ?_, ?_⟩
      · rw [pending, gets]
        exact accounted.waiting
      · rw [pending]
        exact accounted.distinct
      · rw [answers, gets]
        exact accounted.answered
  | waits request pending gets answers network =>
      rw [gets, List.nodup_append] at distinct
      obtain ⟨_, _, apart⟩ := distinct
      refine ⟨?_, ?_, ?_⟩
      · rw [pending, gets]
        intro other member
        rcases List.mem_append.mp member with before | here
        · exact List.mem_append_left _ (accounted.waiting other before)
        · exact List.mem_append_right _ here
      · rw [pending, List.nodup_append]
        refine ⟨accounted.distinct, List.nodup_singleton _, ?_⟩
        intro other member last here
        exact apart other (accounted.waiting other member) last here
      · rw [answers, gets]
        intro answer member
        exact List.mem_append_left _ (accounted.answered answer member)
  | answered request network pending gets answers same =>
      refine ⟨?_, ?_, ?_⟩
      · rw [pending, gets]
        intro other member
        exact List.mem_append_left _ (accounted.waiting other member)
      · rw [pending]
        exact accounted.distinct
      · rw [answers, gets]
        intro answer member
        rcases List.mem_append.mp member with before | here
        · exact List.mem_append_left _ (accounted.answered answer before)
        · rw [List.mem_singleton.mp here]
          exact List.mem_append_right _ List.mem_cons_self
  | put network pending gets answers =>
      refine ⟨?_, ?_, ?_⟩
      · rw [pending]
        exact fun _ none => absurd none List.not_mem_nil
      · rw [pending]
        exact List.nodup_nil
      · rw [answers, gets]
        intro answer member
        rcases List.mem_append.mp member with before | here
        · exact accounted.answered answer before
        · obtain ⟨request, waiting, rfl⟩ := List.mem_map.mp here
          exact accounted.waiting request waiting

omit [DecidableEq κ] in
theorem Requests.waiting (requests : Requests journal next)
    (waiting : journal.actor.pendingRequests ≠ [] → journal.actor.network = none) :
    next.actor.pendingRequests ≠ [] → next.actor.network = none := by
  intro some
  cases requests with
  | quiet pending gets answers network =>
      rw [pending] at some
      rcases network with same | none
      · exact same.trans (waiting some)
      · exact none
  | waits request pending gets answers network => exact network
  | answered request network pending gets answers same =>
      rw [pending] at some
      exact same.trans (waiting some)
  | put network pending gets answers => exact absurd pending some

omit [DecidableEq κ] in
/-- A request that was settled stays settled, and a new one is settled at once. -/
theorem Requests.settled (requests : Requests journal next) (accounted : journal.Accounted)
    (distinct : next.gets.Nodup) (settled : ∀ request ∈ journal.gets, journal.Settled request) :
    ∀ request ∈ next.gets, next.Settled request := by
  intro request asked
  cases requests with
  | quiet pending gets answers network =>
      rw [gets] at asked
      have before := settled request asked
      rwa [Settled, ← pending, ← answers] at before
  | waits new pending gets answers network =>
      rw [gets, List.nodup_append] at distinct
      obtain ⟨_, _, apart⟩ := distinct
      rw [gets] at asked
      rw [Settled, pending, answers]
      rcases List.mem_append.mp asked with old | here
      · have differs := apart request old new List.mem_cons_self
        rcases settled request old with ⟨waits, none⟩ | ⟨notWaiting, answered⟩
        · exact Or.inl ⟨List.mem_append_left _ waits, none⟩
        · refine Or.inr ⟨?_, answered⟩
          rw [List.mem_append, List.mem_singleton, not_or]
          exact ⟨notWaiting, differs⟩
      · refine Or.inl ⟨List.mem_append_right _ here, answersTo_eq_nil ?_⟩
        intro answer member
        exact apart _ (accounted.answered answer member) request here
  | answered new network pending gets answers same =>
      rw [gets, List.nodup_append] at distinct
      obtain ⟨_, _, apart⟩ := distinct
      rw [gets] at asked
      rw [Settled, pending, answers, answersTo_append]
      rcases List.mem_append.mp asked with old | here
      · have other : answersTo request [⟨new, network, some network⟩] = [] := by
          apply answersTo_eq_nil
          intro answer member
          rw [List.mem_singleton.mp member]
          exact (apart request old new List.mem_cons_self).symm
        rw [other, List.append_nil]
        exact settled request old
      · have fresh : answersTo request journal.answers = [] := by
          apply answersTo_eq_nil
          intro answer member
          exact apart _ (accounted.answered answer member) request here
        have itself : request = new := List.mem_singleton.mp here
        refine Or.inr ⟨?_, network, ?_⟩
        · intro waits
          exact apart request (accounted.waiting request waits) request here rfl
        · rw [fresh, itself]
          simp [answersTo]
  | put network pending gets answers =>
      rw [gets] at asked
      rw [Settled, pending, answers, answersTo_append]
      refine Or.inr ⟨List.not_mem_nil, ?_⟩
      rcases settled request asked with ⟨waits, none⟩ | ⟨notWaiting, answer, once⟩
      · exact ⟨network, by rw [none, List.nil_append, answersTo_map accounted.distinct waits]⟩
      · have others : answersTo request (journal.actor.pendingRequests.map
            (fun request => ⟨request, network, some network⟩)) = [] := by
          apply answersTo_eq_nil
          intro other member
          obtain ⟨waiting, waits, rfl⟩ := List.mem_map.mp member
          exact fun same => notWaiting (same ▸ waits)
        exact ⟨answer, by rw [once, others, List.append_nil]⟩

/-! ## Runs -/

omit [DecidableEq κ] in
theorem gets_nodup_of_requests (requests : Requests journal next) (distinct : next.gets.Nodup) :
    journal.gets.Nodup := by
  cases requests with
  | quiet pending gets answers network => rwa [gets] at distinct
  | waits request pending gets answers network =>
      rw [gets] at distinct
      exact (List.nodup_append.mp distinct).1
  | answered request network pending gets answers same =>
      rw [gets] at distinct
      exact (List.nodup_append.mp distinct).1
  | put network pending gets answers => rwa [gets] at distinct

/-- One message keeps what holds of the journal. -/
theorem Consistent.receive (consistent : journal.Consistent) (accounted : journal.Accounted)
    (received : journal.receive message = some next) (distinct : next.gets.Nodup) :
    next.Consistent ∧ next.Accounted := by
  have requests := requests_of_receive received
  obtain ⟨actor, handled, same⟩ := Option.map_eq_some_iff.mp received
  refine ⟨⟨?_, ?_, ?_, ?_⟩, requests.accounted accounted distinct⟩
  · rw [← same]
    exact consistent.watching.receive handled
  · exact consistent.informed.receive received
  · exact requests.waiting consistent.waiting
  · exact requests.settled accounted distinct consistent.settled

theorem gets_run {messages : List (NetworkMessage κ)} {start final : Journal κ}
    (ran : messages.foldlM Journal.receive start = some final) :
    final.gets = start.gets ++ messages.flatMap NetworkMessage.asks := by
  induction messages generalizing start with
  | nil =>
      cases ran
      simp
  | cons message rest ih =>
      rw [List.foldlM_cons, Option.bind_eq_bind, Option.bind_eq_some_iff] at ran
      obtain ⟨next, received, ran⟩ := ran
      obtain ⟨actor, _, same⟩ := Option.map_eq_some_iff.mp received
      rw [ih ran, ← same, List.flatMap_cons, ← List.append_assoc]
      rfl

/-- After every sequence of messages whose requests are different objects, the callback
is registered exactly while there are listeners, every listener was last told the
actor's network, requests wait only while there is no network, and every request waits
or was answered once, with the network current then. -/
theorem run_consistent (messages : List (NetworkMessage κ))
    (distinct : (messages.flatMap NetworkMessage.asks).Nodup) {final : Journal κ}
    (ran : run messages = some final) : final.Consistent := by
  have gets := gets_run ran
  have kept : ∀ (journal next : Journal κ), ∀ message ∈ messages,
      (journal.gets.Nodup → journal.Consistent ∧ journal.Accounted) →
      journal.receive message = some next →
      next.gets.Nodup → next.Consistent ∧ next.Accounted := by
    intro journal next message _ before received distinct
    have requests := requests_of_receive received
    obtain ⟨consistent, accounted⟩ := before (gets_nodup_of_requests requests distinct)
    exact consistent.receive accounted received distinct
  have start : ({} : Journal κ).Consistent ∧ ({} : Journal κ).Accounted :=
    ⟨⟨rfl, fun _ _ entered => (nomatch entered), fun _ => rfl, fun _ asked => (nomatch asked)⟩,
      ⟨fun _ waits => (nomatch waits), List.nodup_nil, fun _ answered => (nomatch answered)⟩⟩
  have holds := Machine.foldlM_invariant kept (fun _ => start) ran
  rw [gets] at holds
  exact (holds distinct).1

def sampleMessages : List (NetworkMessage Nat) :=
  [.start 1 10, .get 100, .put 5, .start 2 20, .update 5, .get 101, .stop 1, .start 2 21, .lost 5]

theorem run_consistent_sample :
    ∃ final, run sampleMessages = some final ∧
      final.actor.calls = [.complete 100 5, .notify 10 (some 5), .notify 20 (some 5),
        .notify 10 (some 5), .notify 20 (some 5), .complete 101 5, .notify 21 (some 5),
        .notify 21 none] ∧ final.Consistent :=
  ⟨_, rfl, rfl, run_consistent sampleMessages (by decide) rfl⟩

end Journal

end

end AlienConnection.Net
