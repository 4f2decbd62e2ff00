import AlienConnection.Bg.Service

/-!
# What stopping leaves alone

No part of a stop request or of a clean-up starts, ends or revives a connecting
job, publishes a connection, or hands the network actor anything but a stop
message under a key of its own.
-/

namespace AlienConnection.Bg

open Library

def published (log : List Output) : List Nat :=
  log.filterMap (fun output =>
    match output with
    | .connected job => some job
    | _ => none)

theorem published_append (first second : List Output) :
    published (first ++ second) = published first ++ published second :=
  List.filterMap_append

/-- What has been sent stays sent, and what is added meets a condition. -/
structure Sends (own : NetworkRequest → Prop) (before after : List NetworkRequest) : Prop where
  kept : before ⊆ after
  own : ∀ request ∈ after, request ∈ before ∨ own request

namespace Sends

theorem refl {own : NetworkRequest → Prop} (sent : List NetworkRequest) : Sends own sent sent :=
  ⟨List.Subset.refl _, fun _ member => Or.inl member⟩

theorem trans {own : NetworkRequest → Prop} {first middle last : List NetworkRequest}
    (earlier : Sends own first middle) (later : Sends own middle last) : Sends own first last where
  kept := List.Subset.trans earlier.kept later.kept
  own := by
    intro request member
    rcases later.own request member with before | added
    · exact earlier.own request before
    · exact Or.inr added

theorem append {own : NetworkRequest → Prop} (sent : List NetworkRequest)
    {request : NetworkRequest} (added : own request) : Sends own sent (sent ++ [request]) where
  kept := List.subset_append_left _ _
  own := by
    intro other member
    rcases List.mem_append.mp member with before | here
    · exact Or.inl before
    · rw [List.mem_singleton.mp here]
      exact Or.inr added

theorem mono {own wider : NetworkRequest → Prop} (implies : ∀ request, own request → wider request)
    {before after : List NetworkRequest} (sends : Sends own before after) :
    Sends wider before after :=
  ⟨sends.kept, fun request member => (sends.own request member).imp_right (implies request)⟩

end Sends

def StopRequest (self : Nat) (request : NetworkRequest) : Prop :=
  ∃ stop, request = .stop (stopListeningKey self stop)

namespace Service

/-- The relation between the two ends of a piece of a stop request. -/
structure Stops (before after : Service) : Prop where
  self : after.self = before.self
  kind : after.kind = before.kind
  count : after.jobs.length = before.jobs.length
  jobs : ∀ (index : Nat) job, before.jobs[index]? = some job → ∃ cancelled : Bool,
    (job.cancelled = true → cancelled = true) ∧
      after.jobs[index]? = some { job with cancelled := cancelled }
  published : published after.log = published before.log
  sent : Sends (StopRequest before.self) before.session.sent after.session.sent

namespace Stops

theorem refl (service : Service) : Stops service service where
  self := rfl
  kind := rfl
  count := rfl
  jobs := fun _ job found => ⟨job.cancelled, id, found⟩
  published := rfl
  sent := Sends.refl _

theorem trans {first middle last : Service} (earlier : Stops first middle)
    (later : Stops middle last) : Stops first last where
  self := later.self.trans earlier.self
  kind := later.kind.trans earlier.kind
  count := later.count.trans earlier.count
  jobs := by
    intro index job found
    obtain ⟨flag, kept, place⟩ := earlier.jobs index job found
    obtain ⟨flag', kept', place'⟩ := later.jobs index _ place
    exact ⟨flag', fun set => kept' (kept set), place'⟩
  published := later.published.trans earlier.published
  sent := earlier.sent.trans (by rw [← earlier.self]; exact later.sent)

/-- Only the named fields of a service matter to the relation. -/
theorem of_fields {before after : Service} (self : after.self = before.self)
    (kind : after.kind = before.kind) (jobs : after.jobs = before.jobs)
    (published : Bg.published after.log = Bg.published before.log)
    (sent : Sends (StopRequest before.self) before.session.sent after.session.sent) :
    Stops before after where
  self := self
  kind := kind
  count := congrArg List.length jobs
  jobs := fun _ job found => ⟨job.cancelled, id, by rw [jobs]; exact found⟩
  published := published
  sent := sent

end Stops

theorem stops_record (service : Service) {output : Output}
    (quiet : Bg.published [output] = []) : Stops service (service.record output) := by
  refine Stops.of_fields rfl rfl rfl ?_ (Sends.refl _)
  rw [record, published_append, quiet, List.append_nil]

theorem stops_changeState (service : Service) (state : State) (msg : Option String) :
    Stops service (service.changeState state msg) := by
  unfold changeState
  split
  · exact Stops.refl service
  · have moved : Stops service { service with state := state } :=
      Stops.of_fields rfl rfl rfl rfl (Sends.refl _)
    exact moved.trans (stops_record _ rfl)

theorem stops_setStopPhase (service : Service) (stop : Nat) (phase : StopPhase) :
    Stops service (service.setStopPhase stop phase) := by
  unfold setStopPhase
  split
  · exact Stops.refl service
  · exact Stops.of_fields rfl rfl rfl rfl (Sends.refl _)

theorem stops_finishStop (service : Service) (stop : Nat) :
    Stops service (service.finishStop stop) := by
  unfold finishStop
  split
  · exact Stops.refl service
  next task _ =>
    have ended : Stops service
        ((service.changeState .stopped task.msg).setStopPhase stop .finished) :=
      (stops_changeState _ _ _).trans (stops_setStopPhase _ _ _)
    dsimp only
    split
    · exact ended.trans (stops_record _ rfl)
    · refine Stops.trans ?_ (stops_record _ rfl)
      refine ended.trans ?_
      exact Stops.of_fields rfl rfl rfl rfl (Sends.refl _)

/-! ## The clean-up -/

theorem sent_perform (self stop : Nat) (session : Session) (op : CleanOp) :
    Sends (StopRequest self) session.sent (op.perform self stop session).1.sent := by
  cases op with
  | stopListening => exact Sends.append _ ⟨stop, rfl⟩
  | shutdown slot =>
      rw [CleanOp.perform]
      split
      · exact Sends.refl _
      · cases slot <;> exact Sends.refl _
  | _ => exact Sends.refl _

theorem sent_release (self stop : Nat) (ops : List CleanOp) (session : Session) :
    Sends (StopRequest self) session.sent (release self stop ops session).1.sent := by
  induction ops generalizing session with
  | nil => exact Sends.refl _
  | cons op rest ih => exact (sent_perform self stop session op).trans (ih _)

theorem stops_release (service : Service) (stop : Nat) (ops : List CleanOp) :
    Stops service
      { service with session := (release service.self stop ops service.session).1 } :=
  Stops.of_fields rfl rfl rfl rfl (sent_release _ _ _ _)

theorem stops_cleanUp (service : Service) (stop : Nat) (failAt : Option Nat) :
    Stops service (service.cleanUp stop failAt) := by
  unfold cleanUp
  split
  · exact (stops_release service stop _).trans (stops_setStopPhase _ _ _)
  · dsimp only
    split
    · exact (stops_release service stop _).trans (stops_finishStop _ _)
    · exact (stops_release service stop _).trans (stops_setStopPhase _ _ _)

/-! ## Requests to stop -/

theorem stops_cancelJob (service : Service) (job : Nat) :
    Stops service (service.cancelJob job) := by
  unfold cancelJob
  split
  · exact Stops.refl service
  next found stored =>
    refine ⟨rfl, rfl, List.length_set, ?_, rfl, Sends.refl _⟩
    intro index other place
    by_cases same : job = index
    · subst same
      rw [stored] at place
      cases place
      refine ⟨true, fun _ => rfl, ?_⟩
      exact List.getElem?_set_self (List.getElem?_eq_some_iff.mp stored).1
    · refine ⟨other.cancelled, id, ?_⟩
      rw [List.getElem?_set_ne same]
      exact place

theorem stops_launchStop (service : Service) (restart : Bool) (msg : Option String)
    (failAt : Option Nat) : Stops service (service.launchStop restart msg failAt) := by
  have listed : ∀ (base : Service) (stops : List StopTask),
      Stops base { base with stops := stops } := fun _ _ =>
    Stops.of_fields rfl rfl rfl rfl (Sends.refl _)
  unfold launchStop
  dsimp only
  split
  next job _ =>
    split
    · exact (stops_cancelJob service job).trans (listed _ _)
    · exact ((stops_cancelJob service job).trans (listed _ _)).trans (stops_cleanUp _ _ _)
  next => exact (listed service _).trans (stops_cleanUp _ _ _)

theorem stops_stopRunner (service : Service) (restart : Bool) (msg : Option String)
    (failAt : Option Nat) : Stops service (service.stopRunner restart msg failAt) := by
  unfold stopRunner
  split
  · exact Stops.refl service
  · exact (stops_changeState _ _ _).trans (stops_launchStop _ _ _ _)

theorem stops_refuseStart (service : Service) (msg : String) (failAt : Option Nat) :
    Stops service (service.refuseStart msg failAt) := by
  have shown : Stops service
      { service with session := { service.session with notification := some "" } } :=
    Stops.of_fields rfl rfl rfl rfl (Sends.refl _)
  exact shown.trans (stops_stopRunner _ _ _ _)

theorem stops_forceLoad (service : Service) (failAt : Option Nat) :
    Stops service (service.forceLoad failAt) := by
  unfold forceLoad
  split
  · exact stops_record service rfl
  · split
    · exact stops_stopRunner service _ _ _
    · exact Stops.refl service

theorem stops_resumeStop (service : Service) (stop : Nat) (failAt : Option Nat) :
    Stops service (service.resumeStop stop failAt) := by
  unfold resumeStop
  split
  · exact Stops.refl service
  · split
    · split
      · exact Stops.refl service
      · exact stops_cleanUp service stop failAt
    · exact stops_finishStop service stop
    · exact Stops.refl service

theorem stops_endChild (service : Service) (stop : Nat) (child : Child) (ok : Bool) :
    Stops service (service.endChild stop child ok) := by
  unfold endChild
  split
  · exact Stops.refl service
  · split
    · split
      · exact stops_setStopPhase service stop _
      · exact Stops.refl service
    · exact Stops.refl service

end Service

end AlienConnection.Bg
