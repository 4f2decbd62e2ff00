import AlienConnection.Database.ParseJson
import AlienConnection.Database.ProfileTable

/-!
# The subscription service

One synchronisation: the profile objects read from the table are filed under
their keys and marked obsolete, the profiles of the documents are merged into
them or created, and the changed objects are written back at the end. Objects
are mutable and shared; they are kept by id, apart from the rows they were read
from.
-/

namespace AlienConnection.Subscription

open Database Library

/-- The result of fetching one source: no file, a text that is not one JSON
element, or its element. -/
inductive Download where
  | failed
  | malformed
  | document (json : Json)

/-- The variables of `createProfilesFromSubscription`. `objects` holds the profile
objects that have a row; `subscriptions` maps a key to the id of its object. -/
structure SyncState where
  table : ProfileTable
  objects : List Profile
  subscriptions : List ((Option String × String) × Int) := []
  toUpdate : List Int := []
  profileId : Int

namespace SyncState

def object (state : SyncState) (id : Int) : Option Profile :=
  Rows.lookup Profile.id id state.objects

/-- One profile of the preprocessing phase. The result is nothing when the check
of `delProfile` fails. -/
def preprocess (currentId : Int) (state : SyncState) (profile : Profile) : Option SyncState :=
  if profile.subscription = .userConfigured then some state
  else
    match LinkedMap.get profile.subscriptionKey state.subscriptions with
    | some _ =>
        match ProfileManager.delProfile state.table profile.id with
        | none => none
        | some table => some
            { state with
              table := table
              profileId := if currentId = profile.id then 0 else state.profileId }
    | none =>
        let filed := { state with
          subscriptions := LinkedMap.put profile.subscriptionKey profile.id state.subscriptions }
        if profile.subscription = .active then some
          { filed with
            toUpdate := profile.id :: state.toUpdate
            objects := Rows.replace Profile.id { profile with subscription := .obsolete }
              state.objects }
        else some filed

def preprocessAll (currentId : Int) : List Profile → SyncState → Option SyncState
  | [], state => some state
  | profile :: rest, state =>
      match state.preprocess currentId profile with
      | none => none
      | some next => preprocessAll currentId rest next

end SyncState

/-- What an obsolete profile takes over from its counterpart in a document. -/
def takeOver (oldProfile it : Profile) : Profile :=
  { oldProfile with
    password := it.password
    method := it.method
    plugin := it.plugin
    udpFallback := it.udpFallback
    subscription := .active }

namespace SyncState

def insert (state : SyncState) (it : Profile) : Int × SyncState :=
  let created := ProfileManager.createProfile state.table { it with subscription := .active }
  (created.1.id,
    { state with
      table := created.2
      objects := state.objects ++ [created.1]
      subscriptions := LinkedMap.put it.subscriptionKey created.1.id state.subscriptions })

/-- The callback: `subscriptions.compute`. -/
def create (state : SyncState) (it : Profile) : Int × SyncState :=
  match (LinkedMap.get it.subscriptionKey state.subscriptions).bind state.object with
  | none => state.insert it
  | some oldProfile =>
      match oldProfile.subscription with
      | .active => (oldProfile.id, state)
      | .obsolete =>
          (oldProfile.id,
            { state with
              toUpdate := oldProfile.id :: state.toUpdate
              objects := Rows.replace Profile.id (takeOver oldProfile it) state.objects })
      | .userConfigured => state.insert it

def setFallback (state : SyncState) (id target : Int) : SyncState × Bool :=
  match state.object id with
  | none => (state, false)
  | some profile =>
      let linked := { profile with udpFallback := some target }
      let changed := { state with objects := Rows.replace Profile.id linked state.objects }
      match ProfileManager.updateProfile state.table linked with
      | none => (changed, false)
      | some table => ({ changed with table := table }, true)

def sink : ProfileSink SyncState where
  create := create
  getAllProfiles := fun state => state.table.listAll
  setFallback := setFallback

/-- One document. Whatever is thrown while it is handled is caught, and what has
been done until then stays. -/
def absorb (runtime : Runtime) (feature : Option Profile) (state : SyncState) :
    Option Json → SyncState
  | none => state
  | some json => (JsonParser.parseJson sink runtime feature json state).1

def writeBack (state : SyncState) : List Int → Option SyncState
  | [] => some state
  | id :: rest =>
      if id ∈ state.toUpdate then
        match state.object id with
        | none => none
        | some profile =>
            match ProfileManager.updateProfile state.table profile with
            | none => none
            | some table => writeBack { state with table := table } rest
      else writeBack state rest

end SyncState

/-- The profile whose feature settings new profiles inherit. -/
def featureOf (table : ProfileTable) (currentId : Int) : Option Profile :=
  table.listAll.find? (fun profile => decide (profile.id = currentId))

/-- `createProfilesFromSubscription`: the table and the id of the current profile
afterwards, or nothing when a check of the profile manager fails. -/
def createProfilesFromSubscription (runtime : Runtime) (table : ProfileTable) (currentId : Int)
    (jsons : List (Option Json)) : Option (ProfileTable × Int) := do
  let start : SyncState := { table := table, objects := table.listAll, profileId := currentId }
  let marked ← start.preprocessAll currentId table.listAll
  let absorbed := jsons.foldl (SyncState.absorb runtime (featureOf table currentId)) marked
  let written ← absorbed.writeBack (table.listAll.map Profile.id)
  some (written.table, written.profileId)

/-- The documents that reach `createProfilesFromSubscription`: a failed download
leaves no file. -/
def obtained (downloads : List Download) : List (Option Json) :=
  downloads.filterMap (fun download =>
    match download with
    | .failed => none
    | .malformed => some none
    | .document json => some (some json))

end AlienConnection.Subscription
