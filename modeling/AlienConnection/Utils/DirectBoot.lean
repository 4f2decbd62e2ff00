import AlienConnection.Bg.TrafficMonitor

/-!
# Direct boot

Before the device is unlocked the profile database cannot be opened. The profiles in
use are then kept in a file of the device storage, and the traffic of a session is
added to the copy in that file. The file is opened for writing, and thereby emptied,
before the profile is expanded; and what is written is the expanded form of the one
profile that was changed.
-/

namespace AlienConnection.Utils

open Database Bg

/-- A profile in memory: its columns, and the flag that is no column. -/
structure BootProfile where
  columns : Profile
  dirty : Bool := false

structure BootProfiles where
  main : BootProfile
  udpFallback : Option BootProfile

def BootProfiles.toList (profiles : BootProfiles) : List BootProfile :=
  profiles.main :: profiles.udpFallback.toList

/-- The file of the device storage. Opened and closed again it has the header of a
stream of objects and no object. -/
inductive DeviceFile where
  | absent
  | header
  | object (profiles : BootProfiles)

inductive Failure where
  | io
  | sql
  | nullPointer
  | noSuchElement
  | illegalArgument
  | illegalState (message : String)

/-- The file, the database unless it cannot be opened, the settings that are read, and
whether the receiver waits for the device to be unlocked. -/
structure Device where
  file : DeviceFile
  database : Option ProfileTable
  directBootAware : Bool
  profileId : Int
  registered : Bool := false

namespace Device

variable (device : Device)

def withDatabase (table : ProfileTable) : Device := { device with database := some table }

@[simp]
theorem withDatabase_withDatabase (first second : ProfileTable) :
    (device.withDatabase first).withDatabase second = device.withDatabase second := rfl

variable {device} in
theorem withDatabase_self {table : ProfileTable} (opened : device.database = some table) :
    device.withDatabase table = device := by
  rw [withDatabase, ← opened]

/-! ## The profile manager -/

def getProfile (id : Int) : Except Failure (Option Profile) :=
  match device.database with
  | none => .error .io
  | some table => .ok (table.get id)

def updateProfile (profile : Profile) : Except Failure Device :=
  match device.database with
  | none => .error .sql
  | some table =>
      match ProfileManager.updateProfile table profile with
      | none => .error (.illegalState "Check failed.")
      | some stored => .ok (device.withDatabase stored)

def expand (profile : BootProfile) : Except Failure BootProfiles :=
  match profile.columns.udpFallback with
  | none => .ok ⟨profile, none⟩
  | some id => (device.getProfile id).map (fun fallback =>
      ⟨profile, fallback.map (fun columns => { columns := columns })⟩)

/-! ## The file -/

def getDeviceProfile : Option BootProfiles :=
  match device.file with
  | .object profiles => some profiles
  | .header => none
  | .absent => none

def clean : Device := { device with file := .absent }

/-- The failure, if there is one, and what is then left. -/
abbrev Outcome := Option Failure × Device

/-- The stream is opened before the profile is expanded. -/
def update (profile : Option BootProfile) : Outcome :=
  match profile with
  | none => (none, device.clean)
  | some profile =>
      match device.expand profile with
      | .error failure => (some failure, { device with file := .header })
      | .ok profiles => (none, { device with file := .object profiles })

def writeBack (profile : BootProfile) : Except Failure Device :=
  if profile.dirty then device.updateProfile profile.columns else .ok device

def updateSelected : Outcome :=
  match device.getProfile device.profileId with
  | .error failure => (some failure, device)
  | .ok selected => device.update (selected.map (fun columns => { columns := columns }))

/-- What was written before a failure stays written. -/
def writeAll (device : Device) : List BootProfile → Outcome
  | [] => (none, device)
  | profile :: rest =>
      match device.writeBack profile with
      | .error failure => (some failure, device)
      | .ok device => writeAll device rest

def flushTrafficStats : Outcome :=
  match device.getDeviceProfile with
  | none => device.updateSelected
  | some profiles =>
      match device.writeAll profiles.toList with
      | (some failure, device) => (some failure, device)
      | (none, device) => device.updateSelected

def listenForUnlock : Device := { device with registered := true }

end Device

/-! ## Persisting -/

def single (id : Int) (profiles : List BootProfile) : Except Failure BootProfile :=
  match profiles.filter (fun profile => profile.columns.id = id) with
  | [] => .error .noSuchElement
  | [profile] => .ok profile
  | _ => .error .illegalArgument

def addBoot (monitor : TrafficMonitor) (profile : BootProfile) : BootProfile :=
  { columns := monitor.addTotals profile.columns, dirty := true }

/-- What `persistStats` does when the profile cannot be fetched. -/
def Device.persistCopy (device : Device) (monitor : TrafficMonitor) (id : Int)
    (failure : Failure) : Device.Outcome :=
  if device.directBootAware then
    match device.getDeviceProfile with
    | none => (some .nullPointer, device)
    | some profiles =>
        match single id profiles.toList with
        | .error failure => (some failure, device)
        | .ok profile =>
            match device.update (some (addBoot monitor profile)) with
            | (some failure, device) => (some failure, device)
            | (none, device) => (none, device.listenForUnlock)
  else (some failure, device)

/-- `persistStats` with both of its ways. Only an `IOException` is caught. -/
def Device.persistStats (device : Device) (monitor : TrafficMonitor) (id : Int) :
    Device.Outcome × TrafficMonitor :=
  match monitor.markPersisted with
  | .error message => ((some (.illegalState message), device), monitor)
  | .ok marked =>
      match device.getProfile id with
      | .error failure => (device.persistCopy monitor id failure, marked)
      | .ok none => ((none, device), marked)
      | .ok (some profile) =>
          match device.updateProfile (monitor.addTotals profile) with
          | .error failure => ((some failure, device), marked)
          | .ok device => ((none, device), marked)

structure Call where
  id : Int
  monitor : TrafficMonitor

def Device.run (device : Device) : List Call → Device.Outcome
  | [] => (none, device)
  | call :: rest =>
      match (device.persistStats call.monitor call.id).1 with
      | (some failure, device) => (some failure, device)
      | (none, device) => device.run rest

def sentFor (id : Int) (calls : List Call) : Long :=
  ((calls.filter (fun call => call.id = id)).map (fun call => call.monitor.current.txTotal)).sum

def receivedFor (id : Int) (calls : List Call) : Long :=
  ((calls.filter (fun call => call.id = id)).map (fun call => call.monitor.current.rxTotal)).sum

def Credited (calls : List Call) (kept stored : BootProfile) : Prop :=
  kept.columns.id = stored.columns.id ∧
    kept.columns.tx = stored.columns.tx + sentFor stored.columns.id calls ∧
    kept.columns.rx = stored.columns.rx + receivedFor stored.columns.id calls

/-- Once the database is there, the profiles that calls were made for are written to
their rows. -/
def WritesBack (calls : List Call) (kept : BootProfiles) (device : Device) : Prop :=
  ∀ table : ProfileTable,
    (∀ profile ∈ kept.toList, ∃ row, table.get profile.columns.id = some row) →
    ∃ flushed written,
      (device.withDatabase table).flushTrafficStats = (none, flushed) ∧
      flushed.database = some written ∧
      ∀ profile ∈ kept.toList, (∃ call ∈ calls, call.id = profile.columns.id) →
        written.get profile.columns.id = some profile.columns

/-- All calls succeed, the file keeps both profiles with the totals of their calls
added, and both can be written back. -/
def KeepsBoth (device : Device) (stored : BootProfiles) (calls : List Call) : Prop :=
  ∃ final kept, device.run calls = (none, final) ∧ final.getDeviceProfile = some kept ∧
    Credited calls kept.main stored.main ∧
    Option.Rel (Credited calls) kept.udpFallback stored.udpFallback ∧
    WritesBack calls kept final

/-! ## Without a database -/

def Device.hold (device : Device) (profile : BootProfile) : Device :=
  { device with file := .object ⟨profile, none⟩, registered := true }

variable {device final : Device} {calls : List Call}

theorem Device.persistStats_locked (locked : device.database = none) (monitor : TrafficMonitor)
    (id : Int) : (device.persistStats monitor id).1 = device.persistCopy monitor id .io := by
  rw [Device.persistStats, monitor.markPersisted_eq]
  simp only [Device.getProfile, locked]

/-- A call succeeds only for a profile without a fallback, and then the copy holds that
profile alone. -/
theorem Device.persistCopy_succeeds (locked : device.database = none) {monitor : TrafficMonitor}
    {id : Int} {failure : Failure}
    (succeeded : device.persistCopy monitor id failure = (none, final)) :
    device.directBootAware = true ∧
      ∃ profiles profile, device.getDeviceProfile = some profiles ∧
        single id profiles.toList = .ok profile ∧ profile.columns.udpFallback = none ∧
        final = device.hold (addBoot monitor profile) := by
  unfold Device.persistCopy at succeeded
  split at succeeded
  next aware =>
    cases read : device.getDeviceProfile with
    | none =>
        rw [read] at succeeded
        cases succeeded
    | some profiles =>
        cases found : single id profiles.toList with
        | error failure =>
            simp only [read, found] at succeeded
            cases succeeded
        | ok profile =>
            have same : (addBoot monitor profile).columns.udpFallback =
                profile.columns.udpFallback := rfl
            simp only [read, found, Device.update, Device.expand, same, Device.getProfile,
              locked] at succeeded
            cases linked : profile.columns.udpFallback with
            | none =>
                simp only [linked] at succeeded
                refine ⟨aware, profiles, profile, rfl, found, linked, ?_⟩
                rw [Device.hold, locked]
                exact (congrArg Prod.snd succeeded).symm
            | some fallback =>
                simp only [linked] at succeeded
                cases succeeded
  next => cases succeeded

/-- A copy of one profile without a fallback is kept by a call. -/
theorem Device.persistCopy_lone
    (aware : device.directBootAware = true) {main : BootProfile}
    (stored : device.file = .object ⟨main, none⟩) (alone : main.columns.udpFallback = none)
    (monitor : TrafficMonitor) (failure : Failure) :
    device.persistCopy monitor main.columns.id failure =
      (none, device.hold (addBoot monitor main)) := by
  have found : single main.columns.id (BootProfiles.toList ⟨main, none⟩) = .ok main := by
    simp [single, BootProfiles.toList]
  have same : (addBoot monitor main).columns.udpFallback = none := alone
  simp only [Device.persistCopy, aware, if_pos, Device.getDeviceProfile, stored, found,
    Device.update, Device.expand, same, Device.listenForUnlock, Device.hold]

theorem Device.run_cons (locked : device.database = none) {call : Call}
    (succeeded : device.run (call :: calls) = (none, final)) :
    ∃ next, device.persistCopy call.monitor call.id .io = (none, next) ∧
      next.run calls = (none, final) := by
  rw [Device.run, persistStats_locked locked] at succeeded
  cases persisted : device.persistCopy call.monitor call.id .io with
  | mk failed next =>
      cases failed with
      | some failure =>
          simp only [persisted] at succeeded
          cases succeeded
      | none =>
          simp only [persisted] at succeeded
          exact ⟨next, rfl, succeeded⟩

/-- A copy without a fallback never gets one. -/
theorem Device.run_lone (locked : device.database = none) {main : BootProfile}
    (stored : device.getDeviceProfile = some ⟨main, none⟩)
    (succeeded : device.run calls = (none, final)) :
    ∃ kept, final.getDeviceProfile = some ⟨kept, none⟩ := by
  induction calls generalizing device main with
  | nil =>
      cases succeeded
      exact ⟨main, stored⟩
  | cons call rest ih =>
      obtain ⟨next, persisted, ran⟩ := run_cons locked succeeded
      obtain ⟨_, _, profile, _, _, _, rfl⟩ := persistCopy_succeeds locked persisted
      have stillLocked : (device.hold (addBoot call.monitor profile)).database = none := locked
      exact ih stillLocked rfl ran

def credit (calls : List Call) (profile : BootProfile) : BootProfile :=
  { columns := { profile.columns with
      tx := profile.columns.tx + sentFor profile.columns.id calls
      rx := profile.columns.rx + receivedFor profile.columns.id calls }
    dirty := profile.dirty || !calls.isEmpty }

theorem credited_credit (calls : List Call) (profile : BootProfile) :
    Credited calls (credit calls profile) profile := ⟨rfl, rfl, rfl⟩

theorem sentFor_cons {call : Call} {id : Int} (same : call.id = id) (calls : List Call) :
    sentFor id (call :: calls) = call.monitor.current.txTotal + sentFor id calls := by
  simp [sentFor, same]

theorem receivedFor_cons {call : Call} {id : Int} (same : call.id = id) (calls : List Call) :
    receivedFor id (call :: calls) = call.monitor.current.rxTotal + receivedFor id calls := by
  simp [receivedFor, same]

theorem credit_addBoot {call : Call} {profile : BootProfile} (same : call.id = profile.columns.id)
    (calls : List Call) :
    credit calls (addBoot call.monitor profile) = credit (call :: calls) profile := by
  rw [credit, credit, sentFor_cons same, receivedFor_cons same]
  simp [addBoot, TrafficMonitor.addTotals, BitVec.add_assoc]

/-- Calls for the only profile of the copy add up. -/
theorem Device.run_credit (locked : device.database = none)
    (aware : device.directBootAware = true) {main : BootProfile}
    (stored : device.file = .object ⟨main, none⟩) (alone : main.columns.udpFallback = none)
    (own : ∀ call ∈ calls, call.id = main.columns.id) :
    ∃ waiting, device.run calls = (none, { device with
      file := .object ⟨credit calls main, none⟩, registered := waiting }) := by
  induction calls generalizing device main with
  | nil =>
      refine ⟨device.registered, ?_⟩
      have same : credit [] main = main := by simp [credit, sentFor, receivedFor]
      rw [Device.run, same, ← stored]
  | cons call rest ih =>
      have here : call.id = main.columns.id := own call List.mem_cons_self
      have step := persistCopy_lone aware stored alone call.monitor .io
      have stillLocked : (device.hold (addBoot call.monitor main)).database = none := locked
      obtain ⟨waiting, ran⟩ := ih stillLocked aware rfl alone
        (fun other member => own other (List.mem_cons_of_mem _ member))
      rw [credit_addBoot here] at ran
      refine ⟨waiting, ?_⟩
      rw [Device.run, persistStats_locked locked, here, step]
      exact ran

/-! ## With the database again -/

theorem Device.updateSelected_open {table : ProfileTable} (opened : device.database = some table) :
    ∃ updated, device.updateSelected = (none, updated) ∧ updated.database = some table := by
  have getEq : ∀ id, device.getProfile id = .ok (table.get id) := by
    intro id
    rw [Device.getProfile, opened]
  rw [Device.updateSelected, getEq]
  dsimp only
  cases table.get device.profileId with
  | none => exact ⟨_, rfl, opened⟩
  | some columns =>
      simp only [Option.map_some, Device.update, Device.expand]
      cases columns.udpFallback with
      | none => exact ⟨_, rfl, opened⟩
      | some fallback =>
          simp only [getEq, Except.map]
          exact ⟨_, rfl, opened⟩

theorem Device.writeBack_open {table : ProfileTable} (opened : device.database = some table)
    {profile : BootProfile} {row : Profile}
    (stored : table.get profile.columns.id = some row) :
    ∃ written, device.writeBack profile = .ok (device.withDatabase written) ∧
      (∀ id, (table.get id).isSome → (written.get id).isSome) ∧
      (profile.dirty = true → written.get profile.columns.id = some profile.columns) := by
  obtain ⟨member, same⟩ := table.get_eq_some_iff.mp stored
  cases dirty : profile.dirty with
  | false =>
      refine ⟨table, ?_, fun _ present => present, fun absurdity => nomatch absurdity⟩
      rw [Device.writeBack, dirty, if_neg Bool.false_ne_true, withDatabase_self opened]
  | true =>
      have present : profile.columns.id ∈ table.rows.map Profile.id :=
        List.mem_map.mpr ⟨row, member, same⟩
      have written : (table.write profile.columns).get profile.columns.id = some profile.columns :=
        Library.Rows.lookup_replace_self present
      refine ⟨table.write profile.columns, ?_, ?_, fun _ => written⟩
      · rw [Device.writeBack, dirty, if_pos rfl, Device.updateProfile, opened]
        simp only [ProfileManager.updateProfile_of_mem member same]
      · intro id found
        by_cases here : id = profile.columns.id
        · rw [here, written]
          rfl
        · rwa [ProfileTable.get, ProfileTable.write_rows,
            Library.Rows.lookup_replace_other here]

/-- Profiles that have rows can be written. -/
theorem Device.writeAll_open {profiles : List BootProfile} {table : ProfileTable}
    (opened : device.database = some table)
    (rows : ∀ profile ∈ profiles, (table.get profile.columns.id).isSome) :
    ∃ written, device.writeAll profiles = (none, device.withDatabase written) := by
  induction profiles generalizing device table with
  | nil => exact ⟨table, by rw [Device.writeAll, withDatabase_self opened]⟩
  | cons profile rest ih =>
      obtain ⟨row, stored⟩ := Option.isSome_iff_exists.mp (rows profile List.mem_cons_self)
      obtain ⟨written, wrote, present, _⟩ := writeBack_open opened stored
      have later : ∀ other ∈ rest, (written.get other.columns.id).isSome := fun other member =>
        present _ (rows other (List.mem_cons_of_mem _ member))
      have reopened : (device.withDatabase written).database = some written := rfl
      obtain ⟨final, all⟩ := ih reopened later
      exact ⟨final, by simp only [Device.writeAll, wrote, all, withDatabase_withDatabase]⟩

theorem Device.flushTrafficStats_open {profiles : BootProfiles}
    (read : device.getDeviceProfile = some profiles)
    {written : ProfileTable}
    (wrote : device.writeAll profiles.toList = (none, device.withDatabase written)) :
    ∃ flushed, device.flushTrafficStats = (none, flushed) ∧ flushed.database = some written := by
  have reopened : (device.withDatabase written).database = some written := rfl
  obtain ⟨updated, selected, kept⟩ := updateSelected_open reopened
  refine ⟨updated, ?_, kept⟩
  simp only [Device.flushTrafficStats, read, wrote, selected]

/-! ## What is kept -/

theorem keepsBoth_nil {stored : BootProfiles} (file : device.file = .object stored) :
    KeepsBoth device stored [] := by
  have read : device.getDeviceProfile = some stored := by rw [Device.getDeviceProfile, file]
  have none : ∀ profile : BootProfile, Credited [] profile profile := fun profile =>
    ⟨rfl, by simp [sentFor], by simp [receivedFor]⟩
  refine ⟨device, stored, rfl, read, none _, ?_, ?_⟩
  · cases stored.udpFallback with
    | none => exact Option.Rel.none
    | some fallback => exact Option.Rel.some (none fallback)
  · intro table rows
    have present : ∀ profile ∈ stored.toList, (table.get profile.columns.id).isSome :=
      fun profile member => Option.isSome_iff_exists.mpr (rows profile member)
    have opened : (device.withDatabase table).database = some table := rfl
    obtain ⟨written, wrote⟩ := Device.writeAll_open opened present
    have reread : (device.withDatabase table).getDeviceProfile = some stored := read
    obtain ⟨flushed, flush, kept⟩ := Device.flushTrafficStats_open reread wrote
    refine ⟨flushed, written, flush, kept, ?_⟩
    rintro profile member ⟨call, called, _⟩
    cases called

/-- A copy of one profile is written to its row, if it is marked. -/
theorem writesBack_lone {main : BootProfile} (file : device.file = .object ⟨main, none⟩)
    (marked : calls ≠ [] → main.dirty = true) : WritesBack calls ⟨main, none⟩ device := by
  intro table rows
  obtain ⟨row, stored⟩ := rows main List.mem_cons_self
  have opened : (device.withDatabase table).database = some table := rfl
  have read : (device.withDatabase table).getDeviceProfile = some ⟨main, none⟩ := by
    simp only [Device.getDeviceProfile, Device.withDatabase, file]
  obtain ⟨written, wrote, _, own⟩ := Device.writeBack_open opened stored
  have all : (device.withDatabase table).writeAll (BootProfiles.toList ⟨main, none⟩) =
      (none, (device.withDatabase table).withDatabase written) := by
    simp only [BootProfiles.toList, Option.toList_none, Device.writeAll, wrote]
  obtain ⟨flushed, flush, kept⟩ := Device.flushTrafficStats_open read all
  refine ⟨flushed, written, flush, kept, ?_⟩
  rintro profile member ⟨call, called, _⟩
  rw [List.mem_singleton.mp member]
  exact own (marked (List.ne_nil_of_mem called))

theorem keepsBoth_lone (locked : device.database = none)
    (aware : device.directBootAware = true) {main : BootProfile}
    (file : device.file = .object ⟨main, none⟩) (alone : main.columns.udpFallback = none)
    (own : ∀ call ∈ calls, call.id = main.columns.id) :
    KeepsBoth device ⟨main, none⟩ calls := by
  obtain ⟨waiting, ran⟩ := Device.run_credit locked aware file alone own
  refine ⟨_, ⟨credit calls main, none⟩, ran, rfl, credited_credit calls main, Option.Rel.none, ?_⟩
  apply writesBack_lone rfl
  intro called
  simp [credit, called]

/-- Both profiles are kept exactly if no call is made, or the app runs before the
device is unlocked for a single profile that names no fallback. -/
theorem keepsBoth_iff (device : Device) (stored : BootProfiles) (calls : List Call)
    (locked : device.database = none) (file : device.file = .object stored)
    (known : ∀ call ∈ calls, ∃ profile ∈ stored.toList, profile.columns.id = call.id) :
    KeepsBoth device stored calls ↔
      calls = [] ∨ (device.directBootAware = true ∧ stored.udpFallback = none ∧
        stored.main.columns.udpFallback = none) := by
  constructor
  · rintro ⟨final, kept, ran, read, _, fallback, _⟩
    cases calls with
    | nil => exact Or.inl rfl
    | cons call rest =>
        obtain ⟨next, persisted, later⟩ := Device.run_cons locked ran
        obtain ⟨aware, profiles, profile, first, found, alone, rfl⟩ :=
          Device.persistCopy_succeeds locked persisted
        have stillLocked : (device.hold (addBoot call.monitor profile)).database = none := locked
        obtain ⟨last, lone⟩ := Device.run_lone stillLocked rfl later
        cases read.symm.trans lone
        have noFallback : stored.udpFallback = none := by
          cases linked : stored.udpFallback with
          | none => rfl
          | some other =>
              rw [linked] at fallback
              cases fallback
        rw [Device.getDeviceProfile, file] at first
        cases first
        refine Or.inr ⟨aware, noFallback, ?_⟩
        -- the profile found is the only one
        have list : stored.toList = [stored.main] := by
          rw [BootProfiles.toList, noFallback]
          rfl
        rw [single, list] at found
        by_cases here : stored.main.columns.id = call.id
        · simp only [List.filter_cons, here, decide_true, if_pos, List.filter_nil] at found
          cases found
          exact alone
        · simp only [List.filter_cons, here, decide_false, List.filter_nil] at found
          cases found
  · rintro (rfl | ⟨aware, noFallback, alone⟩)
    · exact keepsBoth_nil file
    · obtain ⟨main, udpFallback⟩ := stored
      obtain rfl : udpFallback = none := noFallback
      refine keepsBoth_lone locked aware file alone ?_
      intro call member
      obtain ⟨profile, only, same⟩ := known call member
      rw [← same, List.mem_singleton.mp only]

def samplePersist (id : Int) : Call where
  id := id
  monitor := { current := { txTotal := 5, rxTotal := 7 } }

def lockedDevice (stored : BootProfiles) : Device where
  file := .object stored
  database := none
  directBootAware := true
  profileId := stored.main.columns.id

/-- Two calls for a single profile. -/
theorem keepsBoth_single :
    KeepsBoth (lockedDevice ⟨{ columns := { id := 1 } }, none⟩)
      ⟨{ columns := { id := 1 } }, none⟩ [samplePersist 1, samplePersist 1] := by
  refine (keepsBoth_iff _ _ _ rfl rfl ?_).mpr (Or.inr ⟨rfl, rfl, rfl⟩)
  intro call member
  refine ⟨{ columns := { id := 1 } }, List.mem_cons_self, ?_⟩
  simp only [List.mem_cons, List.not_mem_nil, or_false, or_self] at member
  rw [member]
  rfl

/-- A profile with a fallback: the call for the profile fails with an I/O exception and
leaves no profile in the file; the call for the fallback leaves the fallback alone. -/
theorem not_keepsBoth_fallback :
    let stored : BootProfiles :=
      ⟨{ columns := { id := 1, udpFallback := some 2 } }, some { columns := { id := 2 } }⟩
    (((lockedDevice stored).run [samplePersist 1]).1 = some .io ∧
        ((lockedDevice stored).run [samplePersist 1]).2.getDeviceProfile = none) ∧
      (((lockedDevice stored).run [samplePersist 2]).2.getDeviceProfile.map
        (fun kept => kept.main.columns.id) = some 2 ∧
      ¬ KeepsBoth (lockedDevice stored) stored [samplePersist 1, samplePersist 2]) := by
  refine ⟨⟨rfl, rfl⟩, rfl, ?_⟩
  rintro ⟨final, kept, ran, _⟩
  have failed := congrArg Prod.fst ran
  cases failed

end AlienConnection.Utils
