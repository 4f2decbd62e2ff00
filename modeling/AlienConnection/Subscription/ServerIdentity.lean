import AlienConnection.Database.Replacement
import AlienConnection.Subscription.Merge

/-!
# Addresses that identify servers

Profiles are matched by the text of their address. A host without a colon is written as
it is and a host with one in brackets, so the port stands behind the last colon of either
form, and the number of colons tells the two forms apart. What is matched by the text is
therefore the host and the port, whatever characters the host has.
-/

namespace AlienConnection

open Library

namespace Database.Profile

structure SameServer (first second : Profile) : Prop where
  host : first.host = second.host
  remotePort : first.remotePort = second.remotePort

def addressHost (profile : Profile) : Text :=
  if ':' ∈ profile.host.toList then '[' :: profile.host.toList ++ [']'] else profile.host.toList

theorem toList_formattedAddress (profile : Profile) :
    profile.formattedAddress.toList =
      profile.addressHost ++ ':' :: (toString profile.remotePort).toList := by
  rw [formattedAddress, addressHost]
  split <;> simp [String.toList_append]

theorem colon_not_mem_toString (number : Int) : ':' ∉ (toString number).toList := by
  intro member
  rcases Decimal.mem_toString member with digit | sign
  · exact absurd digit (by decide)
  · exact absurd sign (by decide)

theorem colon_mem_addressHost (profile : Profile) :
    ':' ∈ profile.addressHost ↔ ':' ∈ profile.host.toList := by
  rw [addressHost]
  split
  next colon => simp [colon]
  next => exact Iff.rfl

/-- The two forms do not meet: only a host with a colon leaves one in front of the last. -/
theorem addressHost_injective {first second : Profile}
    (same : first.addressHost = second.addressHost) : first.host = second.host := by
  have form : ':' ∈ first.host.toList ↔ ':' ∈ second.host.toList := by
    rw [← colon_mem_addressHost, ← colon_mem_addressHost, same]
  rw [addressHost, addressHost] at same
  by_cases colon : ':' ∈ first.host.toList
  · rw [if_pos colon, if_pos (form.mp colon)] at same
    exact String.toList_inj.mp (List.append_cancel_right (List.cons.inj same).2)
  · rw [if_neg colon, if_neg (fun other => colon (form.mpr other))] at same
    exact String.toList_inj.mp same

theorem sameServer_of_formattedAddress {first second : Profile}
    (same : first.formattedAddress = second.formattedAddress) : SameServer first second := by
  have texts := congrArg (fun text : String => Text.cutLast ':' text.toList) same
  simp only [toList_formattedAddress, Text.cutLast_append _ (colon_not_mem_toString _),
    Option.some.injEq, Prod.mk.injEq] at texts
  obtain ⟨hosts, ports⟩ := texts
  exact ⟨addressHost_injective hosts, Decimal.toString_injective ports⟩

theorem SameServer.symm {first second : Profile} (same : SameServer first second) :
    SameServer second first :=
  ⟨same.host.symm, same.remotePort.symm⟩

/-- The key of a subscribed profile identifies its server. -/
theorem sameServer_of_subscriptionKey {first second : Profile}
    (same : first.subscriptionKey = second.subscriptionKey) : SameServer first second :=
  sameServer_of_formattedAddress (congrArg Prod.snd same)

end Database.Profile

namespace Subscription

open Database Profile

/-- An old profile found by the address of a new one has its server. -/
theorem sameServer_of_byAddress {table : ProfileTable} {it old : Profile}
    (found : LinkedMap.get it.formattedAddress (ProfileManager.byAddress table) = some old) :
    old ∈ table.rows ∧ SameServer old it := by
  rcases LinkedMap.mem_of_get_foldl Profile.formattedAddress found with before | ⟨listed, same⟩
  · cases before
  · exact ⟨listed, sameServer_of_formattedAddress same⟩

section

variable {runtime : Runtime} {table result : ProfileTable} {currentId : Int}
  {jsons : List (Option Json)} {log : Log}

/-- A profile of the table is still there, or an earlier one with its server is. -/
theorem exists_sameServer_of_row {row : Profile} (member : row ∈ table.rows) :
    ∃ after ∈ log.finalRows (baseOf table), SameServer row after := by
  have stays : ∀ other ∈ table.rows, kept table other = true →
      ∃ after ∈ log.finalRows (baseOf table), SameServer other after := by
    intro other listed isKept
    have key := (log.sameRow_current other).subscriptionKey
    exact ⟨_, Log.current_mem listed isKept, sameServer_of_subscriptionKey key.symm⟩
  cases isKept : kept table row with
  | true => exact stays row member isKept
  | false =>
      obtain ⟨isManaged, _⟩ := laterDuplicate_of_not_kept isKept
      -- The first profile with this key is the one that is kept.
      obtain ⟨first, found⟩ : ∃ first, holder table row.subscriptionKey = some first := by
        rw [← Option.isSome_iff_exists, holder, List.find?_isSome]
        exact ⟨row, member, by simp [isManaged]⟩
      obtain ⟨inside, _, sameKey⟩ := holder_mem found
      obtain ⟨after, listed, same⟩ := stays first inside (kept_of_holder found)
      have server := sameServer_of_subscriptionKey sameKey
      exact ⟨after, listed, server.host.symm.trans same.host,
        server.remotePort.symm.trans same.remotePort⟩

/-- A profile of a document has a row with its server. -/
theorem exists_sameServer_of_profile (sound : log.Sound (baseOf table)) {it : Profile}
    (offered : it ∈ log.offered) : ∃ after ∈ log.finalRows (baseOf table), SameServer it after := by
  obtain ⟨row, listed, _, sameKey⟩ := Log.exists_finalRows sound ⟨it, offered, rfl⟩
  exact ⟨row, listed, (sameServer_of_subscriptionKey sameKey).symm⟩

end

/-- **Addresses identify servers.** Equal texts come from equal hosts and ports. So an import
that replaces profiles carries counters over within one server only, and a synchronisation
loses neither a server of the table nor one of the documents. -/
theorem formattedAddress_identifies :
    (∀ first second : Profile, first.formattedAddress = second.formattedAddress →
      first.host = second.host ∧ first.remotePort = second.remotePort) ∧
    (∀ (table : ProfileTable) (it old : Profile),
      LinkedMap.get it.formattedAddress (ProfileManager.byAddress table) = some old →
        old ∈ table.rows ∧ SameServer old it) ∧
    (∀ (runtime : Runtime) (table : ProfileTable) (currentId : Int) (jsons : List (Option Json)),
      ∃ result profileId,
        createProfilesFromSubscription runtime table currentId jsons = some (result, profileId) ∧
        (∀ row ∈ table.rows, ∃ after ∈ result.rows, SameServer row after) ∧
        ∀ it ∈ jsons.flatMap (profilesOf runtime (featureOf table currentId)),
          ∃ after ∈ result.rows, SameServer it after) := by
  refine ⟨?_, fun _ _ _ found => sameServer_of_byAddress found, ?_⟩
  · intro first second same
    obtain ⟨host, remotePort⟩ := sameServer_of_formattedAddress same
    exact ⟨host, remotePort⟩
  · intro runtime table currentId jsons
    obtain ⟨result, synced, rows, sound⟩ := sync_rows runtime table currentId jsons
    refine ⟨result, _, synced, ?_, ?_⟩
    · intro row member
      rw [rows]
      exact exists_sameServer_of_row member
    · intro it listed
      obtain ⟨offered, isOffered, sameKey⟩ := listed_of_profile ⟨it, listed, rfl⟩
      rw [rows]
      obtain ⟨after, afterListed, same⟩ := exists_sameServer_of_profile sound isOffered
      have server := sameServer_of_subscriptionKey sameKey
      exact ⟨after, afterListed, server.host.symm.trans same.host,
        server.remotePort.symm.trans same.remotePort⟩

end Subscription

end AlienConnection
