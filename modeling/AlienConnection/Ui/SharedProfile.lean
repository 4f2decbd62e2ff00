import AlienConnection.Bg.TrafficMonitor
import AlienConnection.Library.WriteBack

/-!
# Two processes that write one profile

The service adds the traffic of a session to the row of the profile, and the home screen
puts the chosen server into it. Both read the whole row, change it, and write the whole row
back, in two processes and without a transaction.
-/

namespace AlienConnection.Ui

open Bg Database Library

structure VInForBean where
  host : String := ""
  port : Int := 0
  password : String := ""
  methode : String := ""
  city : String := ""
  countryName : String := ""
  isSmart : Bool := false
  deriving DecidableEq, Repr

def VInForBean.getName (bean : VInForBean) : String :=
  if bean.isSmart then "Smart Server" else bean.countryName ++ "-" ++ bean.city

/-- `setSkServerData`, with the server that `getNowVpn` returns in the end. -/
def setSkServerData (data : VInForBean) (profile : Profile) : Profile :=
  { profile with
    name := some data.getName
    host := data.host
    password := data.password
    method := data.methode
    remotePort := data.port }

inductive Call where
  | persistStats (id : Int) (monitor : TrafficMonitor)
  | setVpnConfig (data : VInForBean)

def Call.apply : Call → Profile → Profile
  | .persistStats _ monitor, profile => monitor.addTotals profile
  | .setVpnConfig data, profile => setSkServerData data profile

/-- A call between its `get` and its `update`, with the row that it has read. -/
structure Pending where
  call : Call
  read : Option Profile

structure Processes where
  table : ProfileTable
  /-- `DataStore.profileId`. -/
  profileId : Int
  pending : List Pending := []

inductive Step where
  | read (call : Call)
  | write (position : Nat)

namespace Processes

def target (processes : Processes) : Call → Int
  | .persistStats id _ => id
  | .setVpnConfig _ => processes.profileId

def setVpnConfigDone (processes : Processes) (table : ProfileTable) : Processes :=
  { processes with table := table, profileId := 1 }

/-- What a call does once it has its row. A check that fails ends it with an exception. -/
def finish (processes : Processes) : Pending → Processes
  | ⟨.persistStats _ _, none⟩ => processes
  | ⟨.persistStats _ monitor, some profile⟩ =>
      match ProfileManager.updateProfile processes.table (monitor.addTotals profile) with
      | none => processes
      | some table => { processes with table := table }
  | ⟨.setVpnConfig data, some profile⟩ =>
      match ProfileManager.updateProfile processes.table (setSkServerData data profile) with
      | none => processes
      | some table => processes.setVpnConfigDone table
  | ⟨.setVpnConfig data, none⟩ =>
      processes.setVpnConfigDone
        (ProfileManager.createProfile processes.table (setSkServerData data {})).2

def step (processes : Processes) : Step → Processes
  | .read call =>
      { processes with
        pending := processes.pending ++ [⟨call, processes.table.get (processes.target call)⟩] }
  | .write position =>
      let rest := { processes with pending := processes.pending.eraseIdx position }
      match processes.pending[position]? with
      | none => rest
      | some pending => rest.finish pending

end Processes

/-! ## One row -/

section Row

variable (id : Int)

def Pending.copy (pending : Pending) : Option (Call × Profile) :=
  match pending.read with
  | none => none
  | some profile => if profile.id = id then some (pending.call, profile) else none

def Processes.writes (processes : Processes) : Step → Option Call
  | .read _ => none
  | .write position =>
      ((processes.pending[position]?).bind (Pending.copy id)).map Prod.fst

def Processes.written : Processes → List Step → List Call
  | _, [] => []
  | processes, step :: rest =>
      (processes.writes id step).toList ++ (processes.step step).written rest

/-- What a step is for a row: a `get` of it, or of something else, or an end. -/
def Processes.concerns (processes : Processes) : Step → WriteBack.Event Call
  | .read call => .fetch (if processes.target call = id then some call else none)
  | .write position => .store position

def Processes.schedule : Processes → List Step → List (WriteBack.Event Call)
  | _, [] => []
  | processes, step :: rest => processes.concerns id step :: (processes.step step).schedule rest

def Processes.descent (processes : Processes) (steps : List Step) : WriteBack.Descent Call :=
  Machine.run WriteBack.Descent.step {} (processes.schedule id steps)

end Row

/-! ## What is written -/

def Call.tx : Call → Long
  | .persistStats _ monitor => monitor.current.txTotal
  | .setVpnConfig _ => 0

def Call.rx : Call → Long
  | .persistStats _ monitor => monitor.current.rxTotal
  | .setVpnConfig _ => 0

def Call.server : Call → Option VInForBean
  | .persistStats _ _ => none
  | .setVpnConfig data => some data

def lastServer (calls : List Call) : Option VInForBean := (calls.filterMap Call.server).getLast?

abbrev ServerColumns := Option String × String × String × String × Int

def serverColumns (profile : Profile) : ServerColumns :=
  (profile.name, profile.host, profile.password, profile.method, profile.remotePort)

def VInForBean.columns (data : VInForBean) : ServerColumns :=
  (some data.getName, data.host, data.password, data.methode, data.port)

/-- No update of a row is lost: the row has all totals that were written to it, and the
server that was written last. -/
def KeepsUpdates (id : Int) (processes : Processes) (row : Profile) (steps : List Step) : Prop :=
  ∃ final, (Machine.run Processes.step processes steps).table.get id = some final ∧
    final.tx = row.tx + ((processes.written id steps).map Call.tx).sum ∧
    final.rx = row.rx + ((processes.written id steps).map Call.rx).sum ∧
    ∀ data, lastServer (processes.written id steps) = some data →
      serverColumns final = data.columns

/-- The calls that the row does not descend from added nothing, and the last server that it
descends from is the one that was written last, or the same. -/
def Harmless (id : Int) (processes : Processes) (row : Profile) (steps : List Step) : Prop :=
  let descent := processes.descent id steps
  (descent.lost.map Call.tx).sum = 0 ∧ (descent.lost.map Call.rx).sum = 0 ∧
    ∀ data, lastServer descent.stored = some data →
      ((lastServer descent.kept).map VInForBean.columns).getD (serverColumns row) = data.columns

/-! ## The table and the row -/

@[simp]
theorem Call.apply_id (call : Call) (profile : Profile) : (call.apply profile).id = profile.id := by
  cases call <;> rfl

theorem get_write_self {table : ProfileTable} {id : Int} {row value : Profile}
    (present : table.get id = some row) (same : value.id = id) :
    (table.write value).get id = some value := by
  obtain ⟨member, key⟩ := table.get_eq_some_iff.mp present
  apply (table.write value).get_eq_some_iff.mpr
  exact ⟨(table.mem_write member (key.trans same.symm)).mpr (Or.inl rfl), same⟩

theorem get_write_other {table : ProfileTable} {id : Int} {row value : Profile}
    (present : table.get id = some row) (other : value.id ≠ id) :
    (table.write value).get id = some row := by
  obtain ⟨member, key⟩ := table.get_eq_some_iff.mp present
  apply (table.write value).get_eq_some_iff.mpr
  refine ⟨Rows.mem_replace_of_ne member ?_, key⟩
  rw [key]
  exact Ne.symm other

theorem get_createProfile {table : ProfileTable} {id : Int} {row : Profile}
    (present : table.get id = some row) (profile : Profile) :
    (ProfileManager.createProfile table profile).2.get id = some row := by
  obtain ⟨member, key⟩ := table.get_eq_some_iff.mp present
  apply (ProfileManager.createProfile table profile).2.get_eq_some_iff.mpr
  rw [ProfileManager.createProfile_rows]
  exact ⟨List.mem_append_left _ member, key⟩

/-- What an update with a row that was read before does to a row. -/
theorem get_updateProfile {table stored : ProfileTable} {id : Int} {row value : Profile}
    (present : table.get id = some row)
    (updated : ProfileManager.updateProfile table value = some stored) :
    stored.get id = some (if value.id = id then value else row) := by
  have written : stored = table.write value := by
    rw [ProfileManager.updateProfile] at updated
    split at updated
    · exact (Option.some.inj updated).symm
    · cases updated
  rw [written]
  split
  next same => exact get_write_self present same
  next other => exact get_write_other present other

/-- Where the row is, an update of it succeeds. -/
theorem updateProfile_ne_none {table : ProfileTable} {id : Int} {row value : Profile}
    (present : table.get id = some row) (same : value.id = id) :
    ProfileManager.updateProfile table value ≠ none := by
  obtain ⟨member, key⟩ := table.get_eq_some_iff.mp present
  rw [ProfileManager.updateProfile_of_mem member (key.trans same.symm)]
  exact nofun

section Simulation

variable {id : Int} {processes : Processes} {row : Profile}

theorem Pending.copy_of_read {pending : Pending} {profile : Profile}
    (read : pending.read = some profile) :
    pending.copy id = if profile.id = id then some (pending.call, profile) else none := by
  rw [Pending.copy, read]

theorem Processes.pending_finish (processes : Processes) (pending : Pending) :
    (processes.finish pending).pending = processes.pending := by
  unfold Processes.finish
  split
  · rfl
  · split <;> rfl
  · split <;> rfl
  · rfl

/-- The end of a call writes its changed copy if it has one of the row. -/
theorem Processes.get_finish (present : processes.table.get id = some row) (pending : Pending) :
    (processes.finish pending).table.get id =
      some (match pending.copy id with
        | none => row
        | some (call, profile) => call.apply profile) := by
  obtain ⟨call, read⟩ := pending
  cases read with
  | none =>
      cases call with
      | persistStats key monitor => exact present
      | setVpnConfig data => exact get_createProfile present _
  | some profile =>
      have outcome (stored : ProfileTable)
          (updated : ProfileManager.updateProfile processes.table (call.apply profile) = some stored) :
          stored.get id = some (match Pending.copy id ⟨call, some profile⟩ with
            | none => row
            | some (call, profile) => call.apply profile) := by
        rw [get_updateProfile present updated, Call.apply_id, Pending.copy_of_read rfl]
        split <;> rfl
      have failed (update : ProfileManager.updateProfile processes.table (call.apply profile) = none) :
          processes.table.get id = some (match Pending.copy id ⟨call, some profile⟩ with
            | none => row
            | some (call, profile) => call.apply profile) := by
        have other : profile.id ≠ id := fun same =>
          updateProfile_ne_none present ((call.apply_id profile).trans same) update
        rw [Pending.copy_of_read rfl, if_neg other]
        exact present
      cases call with
      | persistStats key monitor =>
          rw [Processes.finish]
          split
          next update => exact failed update
          next stored update => exact outcome stored update
      | setVpnConfig data =>
          rw [Processes.finish]
          split
          next update => exact failed update
          next stored update => exact outcome stored update

def Processes.view (id : Int) (row : Profile) (processes : Processes) :
    WriteBack.Shared Profile Call :=
  ⟨row, processes.pending.map (Pending.copy id)⟩

/-- A step of the processes is one of the shared row. -/
theorem Processes.view_step (present : processes.table.get id = some row) (step : Step) :
    ∃ next, (processes.step step).table.get id = some next ∧
      (processes.step step).view id next =
        (processes.view id row).step Call.apply (processes.concerns id step) := by
  cases step with
  | read call =>
      refine ⟨row, present, ?_⟩
      have copy : Pending.copy id ⟨call, processes.table.get (processes.target call)⟩ =
          (if processes.target call = id then some call else none).map fun call => (call, row) := by
        by_cases same : processes.target call = id
        · rw [if_pos same, same, Pending.copy_of_read present,
            if_pos (processes.table.get_eq_some_iff.mp present).2]
          rfl
        · rw [if_neg same]
          cases read : processes.table.get (processes.target call) with
          | none => rfl
          | some profile =>
              rw [Pending.copy_of_read rfl, if_neg]
              · rfl
              · rw [(processes.table.get_eq_some_iff.mp read).2]
                exact same
      rw [Processes.step, Processes.view, Processes.concerns, Processes.view,
        WriteBack.Shared.step, List.map_append, ← copy]
      rfl
  | write position =>
      rw [Processes.step, Processes.concerns, Processes.view, WriteBack.Shared.step,
        List.getElem?_map, List.eraseIdx_map]
      cases found : processes.pending[position]? with
      | none => exact ⟨row, present, rfl⟩
      | some pending =>
          dsimp only
          have erased : Processes.table
              { processes with pending := processes.pending.eraseIdx position } =
              processes.table := rfl
          rw [Processes.get_finish (erased ▸ present) pending]
          refine ⟨_, rfl, ?_⟩
          rw [Processes.view, Processes.pending_finish, Option.map_some]
          cases pending.copy id with
          | none => rfl
          | some copy => rfl

theorem Processes.writes_eq (processes : Processes) (row : Profile) (step : Step) :
    processes.writes id step = (processes.view id row).stores (processes.concerns id step) := by
  cases step with
  | read call => rfl
  | write position =>
      rw [Processes.writes, Processes.concerns, WriteBack.Shared.stores, Processes.view,
        List.getElem?_map]
      cases processes.pending[position]? <;> rfl

/-- The row at the end of a run is made of the calls that it descends from. -/
theorem Processes.run_follows {initial : Profile} {descent : WriteBack.Descent Call}
    (present : processes.table.get id = some row)
    (follows : WriteBack.Follows Call.apply initial (processes.view id row) descent)
    (steps : List Step) :
    ∃ final, (Machine.run Processes.step processes steps).table.get id = some final ∧
      WriteBack.Follows Call.apply initial
        ((Machine.run Processes.step processes steps).view id final)
        (Machine.run WriteBack.Descent.step descent (processes.schedule id steps)) ∧
      (Machine.run WriteBack.Descent.step descent (processes.schedule id steps)).stored =
        descent.stored ++ processes.written id steps := by
  induction steps generalizing processes row descent with
  | nil => exact ⟨row, present, follows, (List.append_nil _).symm⟩
  | cons step rest ih =>
      obtain ⟨next, there, viewed⟩ := Processes.view_step present step
      have later := follows.step (processes.concerns id step)
      rw [← viewed] at later
      obtain ⟨final, found, followsFinal, stored⟩ := ih there later
      refine ⟨final, found, followsFinal, ?_⟩
      rw [follows.stored, ← Processes.writes_eq, List.append_assoc] at stored
      exact stored

end Simulation

/-! ## Calls one after the other -/

/-- A counter that every call adds to. -/
theorem counter_rebuild {counter : Profile → Long} {size : Call → Long}
    (adds : ∀ call row, counter (Call.apply call row) = counter row + size call)
    (calls : List Call) (row : Profile) :
    counter (WriteBack.rebuild Call.apply row calls) = counter row + (calls.map size).sum := by
  induction calls generalizing row with
  | nil => exact (add_zero _).symm
  | cons call rest ih =>
      rw [List.map_cons, List.sum_cons, ← add_assoc, ← adds]
      exact ih _

theorem Call.tx_apply (call : Call) (row : Profile) : (call.apply row).tx = row.tx + call.tx := by
  cases call with
  | persistStats id monitor => rfl
  | setVpnConfig data => exact (add_zero _).symm

theorem Call.rx_apply (call : Call) (row : Profile) : (call.apply row).rx = row.rx + call.rx := by
  cases call with
  | persistStats id monitor => rfl
  | setVpnConfig data => exact (add_zero _).symm

theorem serverColumns_rebuild (calls : List Call) (row : Profile) :
    serverColumns (WriteBack.rebuild Call.apply row calls) =
      ((lastServer calls).map VInForBean.columns).getD (serverColumns row) := by
  induction calls using List.reverseRecOn generalizing row with
  | nil => rfl
  | append_singleton calls call ih =>
      rw [WriteBack.rebuild_concat]
      cases call with
      | persistStats id monitor =>
          have skipped : lastServer (calls ++ [.persistStats id monitor]) = lastServer calls := by
            rw [lastServer, List.filterMap_append]
            exact congrArg List.getLast? (List.append_nil _)
          rw [skipped, ← ih]
          rfl
      | setVpnConfig data =>
          have found : lastServer (calls ++ [.setVpnConfig data]) = some data := by
            rw [lastServer, List.filterMap_append]
            exact List.getLast?_concat
          rw [found]
          rfl

/-- No update of a row is lost exactly if those that are overwritten unseen were harmless. -/
theorem keepsUpdates_iff_harmless {id : Int} {processes : Processes} {row : Profile}
    (present : processes.table.get id = some row) (idle : processes.pending = [])
    (steps : List Step) :
    KeepsUpdates id processes row steps ↔ Harmless id processes row steps := by
  have start : WriteBack.Follows Call.apply row (processes.view id row) {} := by
    rw [Processes.view, idle]
    exact WriteBack.follows_start row
  obtain ⟨final, found, follows, stored⟩ := Processes.run_follows present start steps
  rw [List.nil_append] at stored
  rw [← Processes.descent] at follows stored
  have value : final = WriteBack.rebuild Call.apply row (processes.descent id steps).kept :=
    follows.value
  have sums (size : Call → Long) (column : Long) :
      column + ((processes.descent id steps).kept.map size).sum =
          column + ((processes.written id steps).map size).sum ↔
        ((processes.descent id steps).lost.map size).sum = 0 := by
    rw [← stored, ← WriteBack.sum_kept_add_sum_lost size follows.size, add_right_inj]
    exact left_eq_add
  rw [KeepsUpdates, Harmless, found]
  simp only [Option.some.injEq, exists_eq_left']
  rw [value, counter_rebuild Call.tx_apply, counter_rebuild Call.rx_apply, serverColumns_rebuild,
    sums, sums, stored]

def onlyProfile : Processes where
  table := (ProfileManager.createProfile .empty {}).2
  profileId := 1

def fiveBytes : Call := .persistStats 1 { current := { txTotal := 5 } }

def office : VInForBean := { host := "10.0.0.1", port := 443, password := "p", methode := "m" }

def oneByOne : List Step :=
  [.read fiveBytes, .write 0, .read (.setVpnConfig office), .write 0]

theorem keepsUpdates_oneByOne :
    onlyProfile.table.get 1 = some { id := 1 } ∧
      KeepsUpdates 1 onlyProfile { id := 1 } oneByOne := by
  have present : onlyProfile.table.get 1 = some { id := 1 } := rfl
  refine ⟨present, (keepsUpdates_iff_harmless present rfl oneByOne).mpr ⟨rfl, rfl, ?_⟩⟩
  intro data last
  cases last
  rfl

def overlapping : List Step :=
  [.read fiveBytes, .read (.setVpnConfig office), .write 0, .write 0]

/-- The traffic of the session is gone. -/
theorem not_keepsUpdates_overlapping :
    onlyProfile.table.get 1 = some { id := 1 } ∧
      ¬ KeepsUpdates 1 onlyProfile { id := 1 } overlapping := by
  refine ⟨rfl, ?_⟩
  rintro ⟨final, found, tx, -⟩
  have counted : ((Machine.run Processes.step onlyProfile overlapping).table.get 1).map Profile.tx =
      some 0 := rfl
  have total : ((onlyProfile.written 1 overlapping).map Call.tx).sum = 5 := rfl
  rw [found, Option.map_some, tx, total] at counted
  exact absurd counted (by decide)

end AlienConnection.Ui
