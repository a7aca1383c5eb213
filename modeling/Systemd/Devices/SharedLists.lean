import Systemd.Devices.SameSysfs
import Systemd.Mounts.SwapLists

set_option autoImplicit false

namespace Systemd.Devices

open Sharing Swaps Option

variable {m : DeviceManager}

variable {sysfs : CString} {nodes : List UnitId}

section

variable (consistent : Consistent m)
include consistent

section

variable (listed : m.sharing.Listed sysfs nodes)
include listed

theorem Consistent.listed_short : nodes.length ≤ m.live.length := by
  have inside : nodes ⊆ m.live := fun u mem =>
    consistent.known u (by rw [DeviceManager.sysfs, (listed.members u).mp mem, isSome_some])
  exact (listed.lists.nodup.subperm inside).length_le

theorem deviceFollowing_listed
    (single : ∀ p ∈ nodes, ∀ q ∈ nodes, leads m p = true -> leads m q = true -> p = q) {u : UnitId}
    (mem : u ∈ nodes) :
    deviceFollowing m u =
      if chief (leads m) nodes = some u then none else chief (leads m) nodes :=
  following_lists listed.lists (consistent.listed_short listed) single mem

theorem removeAll_ends {bound : Nat} (enough : nodes.length < bound) :
    ∃ m', removeAll sysfs bound m = .ok (m', true) := by
  induction nodes generalizing m bound with
  | nil =>
    obtain ⟨bound, rfl⟩ := Nat.exists_eq_succ_of_ne_zero (Nat.ne_of_gt enough)
    exact ⟨m, by rw [removeAll, listed.get]; rfl⟩
  | cons d rest ih =>
    obtain ⟨bound, rfl⟩ := Nat.exists_eq_succ_of_ne_zero (Nat.ne_of_gt (Nat.zero_lt_of_lt enough))
    obtain ⟨sharing, left, here, _, lists⟩ := deviceUnsetSysfs_spec consistent d
    have later : sharing.Listed sysfs rest := by
      have erased := lists sysfs (d :: rest) listed
      rwa [List.erase_cons_head] at erased
    have dead := here.update d (fun device => { device with state := .dead }) fun _ => rfl
    obtain ⟨m', ended⟩ := ih dead later (Nat.lt_of_succ_lt_succ enough)
    refine ⟨m', ?_⟩
    rw [removeAll, listed.get, List.head?_cons]
    simp only [left, bind, Except.bind]
    exact ended

end

end

structure Sharers where
  devices : DeviceManager
  swaps : SwapLists

namespace Sharers

def empty : Sharers := ⟨.empty, .empty⟩

inductive Event where
  | deviceUpdateUnit (dev : UdevDevice) (path : CString) (main : Bool)
  | deviceUnsetSysfs (d : UnitId)
  | deviceFree (u : UnitId)
  | swapAddOne (what : CString) (whatProcSwaps : Option CString) (priority : Int)
      (noauto nofail handle setFlags : Bool)
  | swapUnsetProcSwaps (unit : CString)
  | swapFree (unit : CString)
  | load (devices : List CString) (swaps : List PulledIn)
  | pullIn (device : CString)
  | otherNames (devices swaps : Nat)

-- A failing assertion ends the manager, and nothing follows.
def outcome (swaps : SwapLists) : Except Fault DeviceManager -> Option (Option Sharers)
  | .ok devices => some (some ⟨devices, swaps⟩)
  | .error .freedMemory => some none
  | .error .assertion => none

def take : Event -> Option Sharers -> Option (Option Sharers)
  | _, none => none
  | .deviceUpdateUnit dev path main, some s =>
    outcome s.swaps ((Devices.deviceUpdateUnit s.devices dev path main).map Prod.fst)
  | .deviceUnsetSysfs d, some s => outcome s.swaps (Devices.deviceUnsetSysfs s.devices d)
  | .deviceFree u, some s =>
    if u ∈ s.devices.live then outcome s.swaps (Devices.unitFree s.devices u) else none
  | .swapAddOne what whatProcSwaps priority noauto nofail handle setFlags, some s =>
    some ((s.swaps.addOne what whatProcSwaps priority noauto nofail handle setFlags).map
      fun (swaps, _) => { s with swaps := swaps })
  | .swapUnsetProcSwaps unit, some s =>
    some ((s.swaps.unsetProcSwaps unit).map fun swaps => { s with swaps := swaps })
  | .swapFree unit, some s =>
    if unit ∈ s.swaps.manager.unitsByType then
      some ((s.swaps.free unit).map fun swaps => { s with swaps := swaps })
    else none
  | .load devices swaps, some s =>
    outcome { s.swaps with manager := Swaps.managerDispatchLoadQueue s.swaps.manager swaps }
      (Devices.managerDispatchLoadQueue s.devices devices)
  | .pullIn device, some s => outcome s.swaps (Devices.pullIn s.devices device)
  | .otherNames devices swaps, some s =>
    some (some
      { devices := { s.devices with otherNames := devices }
        swaps := { s.swaps with manager := { s.swaps.manager with otherNames := swaps } } })

def Holds : Option Sharers -> Prop
  | none => False
  | some s =>
    InOrder s.devices.sharing (· ∈ s.devices.live) (leads s.devices) (deviceFollowing s.devices) ∧
      InOrder s.swaps.sharing (· ∈ s.swaps.manager.unitsByType) s.swaps.leads s.swaps.following ∧
      ∀ sysfs, ∃ m', removeAll sysfs (s.devices.live.length + 1) s.devices = .ok (m', true)

def Spares : Event -> Option Sharers -> Prop
  | .deviceUpdateUnit dev path main, some s => Completes s.devices dev path main
  | .deviceFree u, some s => (s.devices.device u).stub = true -> s.devices.sysfs u = none
  | .swapFree unit, some s =>
    unit ∈ s.swaps.manager.loadQueue -> (s.swaps.manager.swap unit).parametersProcSwaps.what = none
  | _, _ => True

structure Consistent (s : Sharers) : Prop where
  devices : Devices.Consistent s.devices
  swaps : s.swaps.Consistent

variable {s : Sharers}

theorem Consistent.holds (consistent : Consistent s) : Holds (some s) := by
  refine ⟨?_, ?_, fun sysfs => ?_⟩
  · refine consistent.devices.sound.inOrder consistent.devices.known ?_
    exact fun _ _ listed single u mem =>
      deviceFollowing_listed consistent.devices listed single mem
  · refine consistent.swaps.sound.inOrder (fun unit some => ?_) fun device nodes listed single unit mem => ?_
    · by_contra absent
      rw [consistent.swaps.keys, consistent.swaps.listed.unlisted unit absent] at some
      cases some
    · have chain := consistent.swaps.chains device
      obtain rfl := Chains.Follows.unique listed.lists.next chain.lists.next
        (by rw [← listed.first, ← chain.first])
      exact SwapLists.following_chain consistent.swaps mem single
  · obtain ⟨nodes, listed⟩ := consistent.devices.sound.listed sysfs
    exact removeAll_ends consistent.devices listed
      (Nat.lt_succ_of_le (consistent.devices.listed_short listed))

theorem Stray.not_holds (stray : Stray s.devices) : ¬ Holds (some s) := by
  obtain ⟨sound, u, held, gone⟩ := stray
  exact fun holds => sound.not_inOrder held gone holds.1

theorem take_consistent (consistent : Consistent s) (event : Event) (next : Option Sharers)
    (taken : take event (some s) = some next) (spares : Spares event (some s)) :
    ∃ s', next = some s' ∧ Consistent s' := by
  obtain ⟨devices, swaps⟩ := consistent
  cases event with
  | deviceUpdateUnit dev path main =>
    rcases deviceUpdateUnit_cases devices dev path main with failed | ⟨m', r, updated, kept, _⟩
    · simp [take, failed, outcome, Except.map] at taken
    · simp only [take, updated, outcome, Except.map, some.injEq] at taken
      exact ⟨_, taken.symm, kept spares, swaps⟩
  | deviceUnsetSysfs d =>
    obtain ⟨sharing, left, here, _⟩ := deviceUnsetSysfs_spec devices d
    simp only [take, left, outcome, some.injEq] at taken
    exact ⟨_, taken.symm, here, swaps⟩
  | deviceFree u =>
    simp only [take] at taken
    split at taken
    · obtain ⟨m', freed, _, kept, _⟩ := unitFree_cases devices u
      simp only [freed, outcome, some.injEq] at taken
      exact ⟨_, taken.symm, kept spares, swaps⟩
    · cases taken
  | swapAddOne what whatProcSwaps priority noauto nofail handle setFlags =>
    obtain ⟨result, added, here⟩ :=
      SwapLists.addOne_consistent swaps what whatProcSwaps priority noauto nofail handle setFlags
    simp only [take, added, map_some, some.injEq] at taken
    exact ⟨_, taken.symm, devices, here⟩
  | swapUnsetProcSwaps unit =>
    obtain ⟨sharing, left, here⟩ := SwapLists.unsetProcSwaps_consistent swaps unit
    simp only [take, SwapLists.unsetProcSwaps, left, map_some, some.injEq] at taken
    exact ⟨_, taken.symm, devices, here⟩
  | swapFree unit =>
    simp only [take] at taken
    split at taken
    · obtain ⟨s', freed, _, kept, _⟩ := SwapLists.free_cases swaps unit
      simp only [freed, map_some, some.injEq] at taken
      exact ⟨_, taken.symm, devices, kept fun queued => (swaps.keys unit).trans (spares queued)⟩
    · cases taken
  | load pulledDevices pulledSwaps =>
    obtain ⟨m', loaded, here, _⟩ := managerDispatchLoadQueue_spec devices pulledDevices
    simp only [take, loaded, outcome, some.injEq] at taken
    exact ⟨_, taken.symm, here, SwapLists.load_consistent swaps pulledSwaps⟩
  | pullIn device =>
    obtain ⟨m', pulled, here, _⟩ := pullIn_spec devices device
    simp only [take, pulled, outcome, some.injEq] at taken
    exact ⟨_, taken.symm, here, swaps⟩
  | otherNames devicesNames swapsNames =>
    refine ⟨_, (some.inj taken).symm, ?_, ?_⟩
    · exact ⟨devices.sound, devices.known, devices.nodup, devices.fresh, devices.named⟩
    · exact swaps.manager _ ⟨swaps.listed.nodup, swaps.listed.unlisted⟩ (fun _ => rfl) rfl

theorem spares_of_holds (consistent : Consistent s) (event : Event) (next : Option Sharers)
    (taken : take event (some s) = some next) (holds : Holds next) : Spares event (some s) := by
  obtain ⟨devices, swaps⟩ := consistent
  cases event with
  | deviceUnsetSysfs | swapAddOne | swapUnsetProcSwaps | load | pullIn | otherNames => trivial
  | deviceUpdateUnit dev path main =>
    rcases deviceUpdateUnit_cases devices dev path main with failed | ⟨m', r, updated, _, stray⟩
    · simp [take, failed, outcome, Except.map] at taken
    · simp only [take, updated, outcome, Except.map, some.injEq] at taken
      subst taken
      by_contra thrown
      exact Stray.not_holds (s := ⟨m', s.swaps⟩) (stray thrown) holds
  | deviceFree u =>
    simp only [take] at taken
    split at taken
    · obtain ⟨m', freed, _, _, stray⟩ := unitFree_cases devices u
      simp only [freed, outcome, some.injEq] at taken
      subst taken
      intro stub
      by_contra held
      exact Stray.not_holds (s := ⟨m', s.swaps⟩) (stray stub held) holds
    · cases taken
  | swapFree unit =>
    simp only [take] at taken
    split at taken
    · obtain ⟨s', freed, manager, _, same⟩ := SwapLists.free_cases swaps unit
      simp only [freed, map_some, some.injEq] at taken
      subst taken
      intro queued
      by_contra held
      have sound : s'.sharing.Sound := (same queued).symm ▸ swaps.sound
      have key : (s'.sharing.key unit).isSome = true := by
        rw [same queued, swaps.keys]
        exact isSome_iff_ne_none.mpr held
      have gone : unit ∉ s'.manager.unitsByType := by
        rw [manager]
        simp only [Swaps.unitFree, if_pos queued]
        exact List.Nodup.not_mem_erase swaps.listed.nodup
      exact sound.not_inOrder key gone holds.2.1
    · cases taken

/-- The lists are in order exactly as long as no unit is thrown away that is in one of them and has not
been loaded. -/
theorem shared_lists_in_order (run : List Event) :
    Steps.Throughout take Holds run (some empty) ↔ Steps.EachStep take Spares run (some empty) := by
  have kept : ∀ event state next, (∃ s, state = some s ∧ Consistent s) ->
      take event state = some next -> Spares event state -> ∃ s, next = some s ∧ Consistent s := by
    rintro event _ next ⟨s, rfl, consistent⟩ taken spares
    exact take_consistent consistent event next taken spares
  have exact : ∀ event state next, (∃ s, state = some s ∧ Consistent s) ->
      take event state = some next -> Holds next -> Spares event state := by
    rintro event _ next ⟨s, rfl, consistent⟩ taken holds
    exact spares_of_holds consistent event next taken holds
  refine Steps.throughout_iff ?_ kept exact run
    ⟨empty, rfl, empty_consistent, SwapLists.empty_consistent⟩
  rintro _ ⟨s, rfl, consistent⟩
  exact consistent.holds

def misconfigured : UdevDevice where
  syspath := .ofString "/sys/devices/sda"
  devnode := some (.ofString "/dev/sda")
  devlinks := []
  wants := [.refused .einval]

/-- The unit of the device is freed again, and the list of the device leads to it. -/
theorem new_unit_dangles : ¬ ∀ run : List Event, Steps.Throughout take Holds run (some empty) := by
  intro always
  have ends : ([Event.deviceUpdateUnit misconfigured misconfigured.syspath true].foldlM
      (fun state event => take event state) (some empty)).any (fun state => state.any fun s =>
        (s.devices.sharing.table misconfigured.syspath).any fun entry =>
          decide (entry.first ∉ s.devices.live)) = true := by
    decide
  obtain ⟨last, ran, lost⟩ := (any_eq_true _ _).mp ends
  have holds := (always _).last ran
  obtain ⟨s, rfl, found⟩ := (any_eq_true _ _).mp lost
  obtain ⟨entry, listed, gone⟩ := (any_eq_true _ _).mp found
  obtain ⟨nodes, _, members, first, _⟩ := holds.1 misconfigured.syspath
  rw [listed] at first
  have mem := List.mem_of_head? first.symm
  exact of_decide_eq_true gone ((members _).mp mem).1

end Sharers

end Systemd.Devices
