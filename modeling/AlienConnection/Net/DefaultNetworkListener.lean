import AlienConnection.Library.LinkedMap

/-!
# The default-network actor

One actor owns the listener map, the current network and the requests waiting
for one. It handles one message at a time. What it calls is recorded in order,
and `registered` tells whether its connectivity callback is registered.
-/

namespace AlienConnection.Net

open Library

abbrev Network := Nat

/-- A message of the actor. Listeners and pending requests are objects, given by
their identity; keys are compared by equality. -/
inductive NetworkMessage (κ : Type) where
  | start (key : κ) (listener : Nat)
  | get (request : Nat)
  | stop (key : κ)
  | put (network : Network)
  | update (network : Network)
  | lost (network : Network)
  deriving DecidableEq, Repr

inductive NetworkCall where
  | notify (listener : Nat) (network : Option Network)
  | complete (request : Nat) (network : Network)
  deriving DecidableEq, Repr

structure NetworkActor (κ : Type) where
  listeners : List (κ × Nat) := []
  network : Option Network := none
  pendingRequests : List Nat := []
  registered : Bool := false
  calls : List NetworkCall := []
  deriving DecidableEq, Repr

namespace NetworkActor

variable {κ : Type} [DecidableEq κ]

def notifyAll (actor : NetworkActor κ) (network : Option Network) : List NetworkCall :=
  actor.listeners.map (fun entry => .notify entry.2 network)

/-- Handle one message. The result is nothing when the check of `get` fails,
which ends the actor. -/
def receive (actor : NetworkActor κ) : NetworkMessage κ → Option (NetworkActor κ)
  | .start key listener => some
      { actor with
        registered := actor.registered || actor.listeners.isEmpty
        listeners := LinkedMap.put key listener actor.listeners
        calls := actor.calls ++
          match actor.network with
          | none => []
          | some network => [.notify listener (some network)] }
  | .get request =>
      if actor.listeners.isEmpty then none
      else
        match actor.network with
        | none => some { actor with pendingRequests := actor.pendingRequests ++ [request] }
        | some network => some { actor with calls := actor.calls ++ [.complete request network] }
  | .stop key =>
      if actor.listeners.isEmpty then some actor
      else
        match LinkedMap.get key actor.listeners with
        | none => some { actor with listeners := LinkedMap.remove key actor.listeners }
        | some _ =>
            let remaining := LinkedMap.remove key actor.listeners
            if remaining.isEmpty then
              some { actor with listeners := remaining, network := none, registered := false }
            else some { actor with listeners := remaining }
  | .put network => some
      { actor with
        network := some network
        pendingRequests := []
        calls := actor.calls ++
          actor.pendingRequests.map (fun request => .complete request network) ++
          actor.notifyAll (some network) }
  | .update network =>
      if actor.network = some network then
        some { actor with calls := actor.calls ++ actor.notifyAll actor.network }
      else some actor
  | .lost network =>
      if actor.network = some network then
        some { actor with network := none, calls := actor.calls ++ actor.notifyAll none }
      else some actor

def Watching (actor : NetworkActor κ) : Prop :=
  actor.registered = !actor.listeners.isEmpty

theorem Watching.receive {actor next : NetworkActor κ} (watching : actor.Watching)
    {message : NetworkMessage κ} (handled : actor.receive message = some next) :
    next.Watching := by
  unfold Watching at watching ⊢
  cases message with
  | start key listener =>
      cases handled
      have filled : (LinkedMap.put key listener actor.listeners).isEmpty = false := by
        rw [List.isEmpty_eq_false_iff]
        intro empty
        have present := LinkedMap.get_put_self key listener actor.listeners
        rw [empty] at present
        cases present
      rw [watching, filled, Bool.not_or_self]
      rfl
  | get request =>
      rw [NetworkActor.receive] at handled
      split at handled
      · cases handled
      · split at handled <;> (cases handled; exact watching)
  | stop key =>
      rw [NetworkActor.receive] at handled
      split at handled
      · cases handled
        exact watching
      next filled =>
        split at handled
        next absent =>
          cases handled
          rw [LinkedMap.remove_of_not_mem (LinkedMap.get_eq_none_iff.mp absent)]
          exact watching
        next =>
          dsimp only at handled
          split at handled
          next emptied =>
            cases handled
            rw [emptied]
            rfl
          next remaining =>
            cases handled
            rw [Bool.eq_false_iff.mpr remaining, watching, Bool.eq_false_iff.mpr filled]
  | put network =>
      cases handled
      exact watching
  | update network =>
      rw [NetworkActor.receive] at handled
      split at handled <;> (cases handled; exact watching)
  | lost network =>
      rw [NetworkActor.receive] at handled
      split at handled <;> (cases handled; exact watching)

/-- A start message enters its key and keeps the others. -/
theorem keys_start (actor : NetworkActor κ) (key : κ) (listener : Nat) :
    ∃ next, actor.receive (.start key listener) = some next ∧
      ∀ other, other ∈ LinkedMap.keys next.listeners ↔
        other = key ∨ other ∈ LinkedMap.keys actor.listeners :=
  ⟨_, rfl, fun _ => LinkedMap.mem_keys_put⟩

/-- A stop message removes its key and keeps the others. -/
theorem keys_stop (actor : NetworkActor κ) (key : κ) :
    ∃ next, actor.receive (.stop key) = some next ∧
      ∀ other, other ∈ LinkedMap.keys next.listeners ↔
        other ∈ LinkedMap.keys actor.listeners ∧ other ≠ key := by
  rw [receive]
  split
  next empty =>
    refine ⟨actor, rfl, fun other => ?_⟩
    rw [List.isEmpty_iff.mp empty]
    simp [LinkedMap.keys]
  next =>
    split
    next absent => exact ⟨_, rfl, fun _ => LinkedMap.mem_keys_remove⟩
    next =>
      dsimp only
      split
      · exact ⟨_, rfl, fun _ => LinkedMap.mem_keys_remove⟩
      · exact ⟨_, rfl, fun _ => LinkedMap.mem_keys_remove⟩

/-- Every other message leaves the listeners alone. -/
theorem listeners_receive {actor next : NetworkActor κ} {message : NetworkMessage κ}
    (handled : actor.receive message = some next)
    (notStart : ∀ key listener, message ≠ .start key listener)
    (notStop : ∀ key, message ≠ .stop key) : next.listeners = actor.listeners := by
  cases message with
  | start key listener => exact absurd rfl (notStart key listener)
  | stop key => exact absurd rfl (notStop key)
  | get request =>
      rw [NetworkActor.receive] at handled
      split at handled
      · cases handled
      · split at handled <;> (cases handled; rfl)
  | put network =>
      cases handled
      rfl
  | update network =>
      rw [NetworkActor.receive] at handled
      split at handled <;> (cases handled; rfl)
  | lost network =>
      rw [NetworkActor.receive] at handled
      split at handled <;> (cases handled; rfl)

end NetworkActor

end AlienConnection.Net
