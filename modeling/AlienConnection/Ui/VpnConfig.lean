import AlienConnection.Ui.SharedProfile

/-!
# The profile of the home screen

`setVpnConfig` puts the chosen server into the selected profile, or into a new one, and then
selects the profile with the id 1. Nothing makes that the profile it has written: the ids of
a table that was used before go on from the last one.
-/

namespace AlienConnection.Ui

open Database Library

def Processes.setVpnConfig (data : VInForBean) (processes : Processes) : Processes :=
  (processes.step (.read (.setVpnConfig data))).step (.write processes.pending.length)

/-- One call after the other, each with the server that `getNowVpn` returns in it. -/
def Processes.setVpnConfigs (processes : Processes) (servers : List VInForBean) : Processes :=
  Machine.run (fun processes data => processes.setVpnConfig data) processes servers

def Processes.selected (processes : Processes) : Option Profile :=
  processes.table.get processes.profileId

def HasServer (data : VInForBean) (profile : Profile) : Prop :=
  profile.host = data.host ∧ profile.remotePort = data.port ∧ profile.password = data.password ∧
    profile.method = data.methode

def Processes.Selects (processes : Processes) (data : VInForBean) : Prop :=
  ∃ profile, processes.selected = some profile ∧ HasServer data profile

/-- After a call and any number of further ones, the selected profile connects to the server
of the last call, and the table has as many rows as after the first. -/
def Processes.Configures (processes : Processes) (data : VInForBean) : Prop :=
  ∀ more : List VInForBean,
    let last := (processes.setVpnConfig data).setVpnConfigs more
    last.Selects (more.getLastD data) ∧
      last.table.rows.length = (processes.setVpnConfig data).table.rows.length

theorem hasServer_setSkServerData (data : VInForBean) (profile : Profile) :
    HasServer data (setSkServerData data profile) := ⟨rfl, rfl, rfl, rfl⟩

namespace Processes

variable {processes : Processes} {data : VInForBean}

theorem setVpnConfig_eq (processes : Processes) (data : VInForBean) :
    processes.setVpnConfig data =
      processes.finish ⟨.setVpnConfig data, processes.selected⟩ := by
  simp only [setVpnConfig, step, List.getElem?_concat_length, target]
  rw [List.eraseIdx_append_of_length_le (Nat.le_refl _)]
  simp [selected]

theorem setVpnConfig_of_some {row : Profile} (found : processes.selected = some row) :
    processes.setVpnConfig data =
      processes.setVpnConfigDone (processes.table.write (setSkServerData data row)) := by
  obtain ⟨member, _⟩ := processes.table.get_eq_some_iff.mp found
  have updated : ProfileManager.updateProfile processes.table (setSkServerData data row) =
      some (processes.table.write (setSkServerData data row)) :=
    ProfileManager.updateProfile_of_mem member rfl
  rw [setVpnConfig_eq, found, finish, updated]

theorem setVpnConfig_of_none (missing : processes.selected = none) :
    processes.setVpnConfig data =
      processes.setVpnConfigDone
        (ProfileManager.createProfile processes.table (setSkServerData data {})).2 := by
  rw [setVpnConfig_eq, missing, finish]

/-- Once the profile 1 is there and selected, a call overwrites it. -/
theorem setVpnConfig_ready {row : Profile} (first : processes.profileId = 1)
    (found : processes.table.get 1 = some row) (data : VInForBean) :
    (processes.setVpnConfig data).profileId = 1 ∧
      (processes.setVpnConfig data).table.get 1 = some (setSkServerData data row) ∧
      (processes.setVpnConfig data).table.rows.length = processes.table.rows.length := by
  have selected : processes.selected = some row := by rw [Processes.selected, first, found]
  have key := (processes.table.get_eq_some_iff.mp found).2
  rw [setVpnConfig_of_some selected]
  refine ⟨rfl, get_write_self found key, ?_⟩
  exact List.length_map _

theorem setVpnConfigs_ready {row : Profile} (first : processes.profileId = 1)
    (found : processes.table.get 1 = some row) (has : HasServer data row)
    (more : List VInForBean) :
    (processes.setVpnConfigs more).Selects (more.getLastD data) ∧
      (processes.setVpnConfigs more).table.rows.length = processes.table.rows.length := by
  induction more generalizing processes data row with
  | nil =>
      refine ⟨⟨row, ?_, has⟩, rfl⟩
      change processes.table.get processes.profileId = some row
      rw [first, found]
  | cons server rest ih =>
      obtain ⟨kept, written, length⟩ := setVpnConfig_ready first found server
      obtain ⟨selects, same⟩ := ih kept written (hasServer_setSkServerData server row)
      rw [List.getLastD_cons]
      exact ⟨selects, same.trans length⟩

theorem profileId_setVpnConfig (processes : Processes) (data : VInForBean) :
    (processes.setVpnConfig data).profileId = 1 := by
  cases found : processes.selected with
  | none =>
      rw [setVpnConfig_of_none found]
      rfl
  | some row =>
      rw [setVpnConfig_of_some found]
      rfl

/-- All depends on the profile 1 after the first call. -/
theorem configures_iff (processes : Processes) (data : VInForBean) :
    processes.Configures data ↔
      ∃ row, (processes.setVpnConfig data).table.get 1 = some row ∧ HasServer data row := by
  constructor
  · intro configures
    obtain ⟨⟨row, selected, has⟩, _⟩ := configures []
    change (processes.setVpnConfig data).table.get (processes.setVpnConfig data).profileId =
      some row at selected
    rw [profileId_setVpnConfig] at selected
    exact ⟨row, selected, has⟩
  · rintro ⟨row, found, has⟩ more
    exact setVpnConfigs_ready (profileId_setVpnConfig processes data) found has more

theorem get_write_of_ne {table : ProfileTable} {id : Int} {value : Profile}
    (other : value.id ≠ id) : (table.write value).get id = table.get id := by
  apply Option.ext
  intro row
  rw [ProfileTable.get_eq_some_iff, ProfileTable.get_eq_some_iff]
  constructor
  · rintro ⟨member, key⟩
    rcases Rows.mem_replace member with here | ⟨old, _⟩
    · exact absurd (here ▸ key) other
    · exact ⟨old, key⟩
  · rintro ⟨member, key⟩
    exact ⟨Rows.mem_replace_of_ne member (fun same => other (same.symm.trans key)), key⟩

/-- A new profile is found under its own id only. -/
theorem get_createProfile_iff {table : ProfileTable} {profile row : Profile} {id : Int} :
    (ProfileManager.createProfile table profile).2.get id = some row ↔
      table.get id = some row ∨
        (row = (ProfileManager.createProfile table profile).1 ∧ id = table.sequence + 1) := by
  rw [ProfileTable.get_eq_some_iff, ProfileTable.get_eq_some_iff,
    ProfileManager.createProfile_rows, List.mem_append, List.mem_singleton]
  constructor
  · rintro ⟨old | rfl, key⟩
    · exact Or.inl ⟨old, key⟩
    · exact Or.inr ⟨rfl, key.symm⟩
  · rintro (⟨old, key⟩ | ⟨rfl, key⟩)
    · exact ⟨Or.inl old, key⟩
    · exact ⟨Or.inr rfl, key.symm⟩

/-- A table that has never had a row has none. -/
theorem get_of_unused {table : ProfileTable} (unused : table.sequence = 0) (id : Int) :
    table.get id = none := by
  cases found : table.get id with
  | none => rfl
  | some row =>
      obtain ⟨member, _⟩ := table.get_eq_some_iff.mp found
      have positive := table.positive row member
      have bounded := table.bounded row member
      omega

/-- The home screen connects to the chosen server, and adds no further rows, exactly if the
profile 1 is the selected one, or the table is new, or the profile 1 has the server already. -/
theorem configures_iff_first (processes : Processes) (data : VInForBean) :
    processes.Configures data ↔
      (processes.profileId = 1 ∧ (processes.table.get 1).isSome = true) ∨
        processes.table.sequence = 0 ∨
        ∃ row, processes.table.get 1 = some row ∧ HasServer data row := by
  rw [configures_iff]
  cases found : processes.selected with
  | some row =>
      have unused : processes.table.sequence ≠ 0 := by
        intro unused
        rw [selected, get_of_unused unused] at found
        cases found
      have key := (processes.table.get_eq_some_iff.mp found).2
      rw [setVpnConfig_of_some found]
      by_cases first : processes.profileId = 1
      · rw [selected, first] at found
        rw [first] at key
        constructor
        · intro _
          exact Or.inl ⟨first, by rw [found]; rfl⟩
        · intro _
          exact ⟨_, get_write_self found key, hasServer_setSkServerData data row⟩
      · have same : (processes.table.write (setSkServerData data row)).get 1 =
            processes.table.get 1 := by
          apply get_write_of_ne
          rw [← key] at first
          exact first
        simp only [setVpnConfigDone, same, first, unused, false_and, false_or]
  | none =>
      rw [setVpnConfig_of_none found]
      simp only [setVpnConfigDone, get_createProfile_iff]
      constructor
      · rintro ⟨row, old | ⟨_, key⟩, has⟩
        · exact Or.inr (Or.inr ⟨row, old, has⟩)
        · exact Or.inr (Or.inl (by omega))
      · rintro (⟨first, present⟩ | unused | ⟨row, old, has⟩)
        · rw [selected, first] at found
          rw [found] at present
          cases present
        · exact ⟨_, Or.inr ⟨rfl, by omega⟩, hasServer_setSkServerData data {}⟩
        · exact ⟨row, Or.inl old, has⟩

/-- The only row of the table has been deleted. The profile that is created gets the id 2,
and every further call creates another one. -/
theorem not_configures_deleted :
    let table := (ProfileManager.createProfile ProfileTable.empty {}).2.erase 1
    let processes : Processes := { table := table, profileId := 1 }
    let server : VInForBean := { host := "10.0.0.1", port := 8388 }
    (processes.setVpnConfig server).selected = none ∧
      ((processes.setVpnConfigs [server, server]).table.rows.map Profile.id) = [2, 3] ∧
      ¬ processes.Configures server := by
  intro table processes server
  have missing : (processes.setVpnConfig server).selected = none := by decide
  refine ⟨missing, by decide, ?_⟩
  intro configures
  obtain ⟨⟨row, selected, _⟩, _⟩ := configures []
  change (processes.setVpnConfig server).selected = some row at selected
  rw [missing] at selected
  cases selected

end Processes

end AlienConnection.Ui
