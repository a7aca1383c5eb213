import Systemd.Mounts.ProcSwaps
import Systemd.Shared.Followers

set_option autoImplicit false

namespace Systemd.Swaps

open Sharing Option

/-- The swap units with the pointers that make the chains of the manager: the kernel name that each of
them keeps, the same_proc_swaps lists, and the table swaps_by_proc_swaps. -/
structure SwapLists where
  manager : SwapManager
  sharing : Shared CString CString

namespace SwapLists

def empty : SwapLists := ⟨.empty, .empty⟩

-- The list that goes on is found under the kernel name of its first unit.
def unsetProcSwaps (s : SwapLists) (unit : CString) : Option SwapLists :=
  (s.sharing.leave (fun _ first => first) unit).map fun sharing =>
    ⟨swapUnsetProcSwaps s.manager unit, sharing⟩

def joins (m : SwapManager) (unit : CString) : Bool :=
  unit ∉ m.unitsByType || (m.swap unit).parametersProcSwaps.what.isNone

def addOne (s : SwapLists) (what : CString) (whatProcSwaps : Option CString) (priority : Int)
    (noauto nofail handle setFlags : Bool) : Option (SwapLists × Option RegistryErrno) :=
  let unit := unitOf what
  let (manager, r) :=
    swapAddOne s.manager what whatProcSwaps priority noauto nofail handle setFlags
  match whatProcSwaps with
  | some device =>
    if r.isNone && joins s.manager unit then
      (s.sharing.join unit device).map fun sharing => (⟨manager, sharing⟩, r)
    else some (⟨manager, s.sharing⟩, r)
  | none => some (⟨manager, s.sharing⟩, r)

def free (s : SwapLists) (unit : CString) : Option SwapLists :=
  if unit ∈ s.manager.loadQueue then some ⟨Swaps.unitFree s.manager unit, s.sharing⟩
  else
    (s.sharing.leave (fun _ first => first) unit).map fun sharing =>
      ⟨Swaps.unitFree s.manager unit, sharing⟩

def leads (s : SwapLists) (unit : CString) : Bool :=
  (s.manager.swap unit).what = (s.manager.swap unit).parametersProcSwaps.what

def following (s : SwapLists) (unit : CString) : Option CString :=
  Sharing.following s.sharing.links s.leads s.manager.unitsByType.length unit

structure Consistent (s : SwapLists) : Prop where
  sound : s.sharing.Sound
  listed : s.manager.Listed
  keys : ∀ unit, s.sharing.key unit = (s.manager.swap unit).parametersProcSwaps.what
  chains : ∀ device, s.sharing.Listed device (s.manager.swapsByProcSwaps device)

variable {s : SwapLists}

theorem empty_consistent : empty.Consistent where
  sound := Shared.empty_sound
  listed := ⟨List.nodup_nil, fun _ _ => rfl⟩
  keys := fun _ => rfl
  chains := fun _ => ⟨Chains.Chain.nil, by simp [empty, SwapManager.empty, Shared.empty], rfl,
    by simp [empty, Shared.empty]⟩

section

variable (consistent : s.Consistent)
include consistent

theorem Consistent.manager (m : SwapManager) (listed : m.Listed) (same : ∀ unit, (m.swap
      unit).parametersProcSwaps.what = (s.manager.swap unit).parametersProcSwaps.what)
    (chains : m.swapsByProcSwaps = s.manager.swapsByProcSwaps) : Consistent ⟨m, s.sharing⟩ where
  sound := consistent.sound
  listed := listed
  keys := fun unit => (consistent.keys unit).trans (same unit).symm
  chains := fun device => by
    rw [chains]
    exact consistent.chains device

theorem Consistent.unitNew {unit : CString} (absent : unit ∉ s.manager.unitsByType) (what : CString) :
    Consistent ⟨Swaps.unitNew s.manager unit what, s.sharing⟩ := by
  refine consistent.manager _ (consistent.listed.unitNew absent what) (fun other => ?_) rfl
  by_cases same : other = unit
  · subst same
    rw [consistent.listed.unlisted _ absent]
    simp [Swaps.unitNew, swapInit]
  · simp [Swaps.unitNew, same]

theorem Consistent.present (what : CString) : Consistent ⟨Swaps.present s.manager what, s.sharing⟩ := by
  by_cases known : unitOf what ∈ s.manager.unitsByType
  · simpa [Swaps.present, known] using consistent
  · simpa [Swaps.present, known] using consistent.unitNew known what

theorem addOne_consistent (what : CString) (whatProcSwaps : Option CString) (priority : Int)
    (noauto nofail handle setFlags : Bool) :
    ∃ result, s.addOne what whatProcSwaps priority noauto nofail handle setFlags = some result ∧
      result.1.Consistent := by
  have here := consistent.present what
  have joining : joins s.manager (unitOf what) =
      ((Swaps.present s.manager what).swap (unitOf what)).parametersProcSwaps.what.isNone := by
    by_cases known : unitOf what ∈ s.manager.unitsByType
    · simp [joins, Swaps.present, known]
    · simp [joins, Swaps.present, known, unitNew, swapInit]
  have mem := present_mem s.manager what
  unfold addOne
  rcases swapAddOne_cases s.manager what whatProcSwaps priority noauto nofail handle setFlags with
    ⟨r, failed⟩ | added
  · simp only [failed, isNone_some, Bool.false_and, Bool.false_eq_true, if_false]
    cases whatProcSwaps with
    | none => exact ⟨_, rfl, consistent⟩
    | some device => exact ⟨_, rfl, consistent⟩
  · rw [added]
    generalize Swaps.present s.manager what = m at here joining mem
    generalize unitOf what = unit at joining mem
    cases whatProcSwaps with
    | none =>
      refine ⟨_, rfl, here.manager _ (here.listed.update mem _) (fun other => ?_) rfl⟩
      by_cases same : other = unit
      · simp [SwapManager.update, fromEtcFstabLine, same]
      · simp [SwapManager.update, same]
    | some device =>
      simp only [isNone_none, Bool.true_and, joining]
      obtain ⟨units, swaps⟩ := chainProcSwaps_eq m unit device
      have memberChained : unit ∈ (chainProcSwaps m unit device).unitsByType := units ▸ mem
      have listed : (chainProcSwaps m unit device).Listed :=
        ⟨units ▸ here.listed.nodup, fun other absent => by
          rw [swaps]
          exact here.listed.unlisted other (units ▸ absent)⟩
      cases kernel : (m.swap unit).parametersProcSwaps.what with
      | some known =>
        refine ⟨_, rfl, here.manager _ (listed.update memberChained _) (fun other => ?_) ?_⟩
        · by_cases same : other = unit
          · simp [SwapManager.update, fromProcSwapsLine, swaps, same, kernel]
          · simp [SwapManager.update, swaps, same]
        · simp [SwapManager.update, chainProcSwaps, kernel]
      | none =>
        have free : s.sharing.key unit = none := (here.keys unit).trans kernel
        obtain ⟨sharing, joined, sound, keys, first, others⟩ :=
          Shared.join_listed here.sound free (here.chains device)
        refine ⟨_, by rw [isNone_none, if_pos rfl]; exact congrArg _ joined,
          sound, listed.update memberChained _, fun other => ?_, fun other => ?_⟩
        · rw [keys]
          by_cases same : other = unit
          · simp [SwapManager.update, fromProcSwapsLine, swaps, same, kernel]
          · simpa [SwapManager.update, swaps, same] using here.keys other
        · by_cases same : other = device
          · simpa [SwapManager.update, chainProcSwaps, kernel, same] using first
          · simpa [SwapManager.update, chainProcSwaps, kernel, same] using
              others other _ same (here.chains other)

theorem unsetProcSwaps_consistent (unit : CString) :
    ∃ sharing, s.sharing.leave (fun _ first => first) unit = some sharing ∧
      Consistent ⟨swapUnsetProcSwaps s.manager unit, sharing⟩ := by
  obtain ⟨sharing, left, sound, keys, lists⟩ := Shared.leave_first consistent.sound unit
  refine ⟨sharing, left, ?_⟩
  cases kernel : (s.manager.swap unit).parametersProcSwaps.what with
  | none =>
    have free : s.sharing.key unit = none := (consistent.keys unit).trans kernel
    rw [Shared.leave_unlisted _ free] at left
    obtain rfl := some.inj left
    simpa only [swapUnsetProcSwaps, kernel] using consistent
  | some device =>
    have mem : unit ∈ s.manager.unitsByType := by
      by_contra absent
      rw [consistent.listed.unlisted unit absent] at kernel
      cases kernel
    have cleared := consistent.listed.update mem fun s => { s with parametersProcSwaps.what := none }
    simp only [swapUnsetProcSwaps, kernel]
    refine ⟨sound, ⟨cleared.nodup, cleared.unlisted⟩, fun other => ?_, fun other => ?_⟩
    · rw [keys]
      by_cases same : other = unit
      · simp [SwapManager.update, same]
      · simpa [SwapManager.update, same] using consistent.keys other
    · have here := lists other _ (consistent.chains other)
      by_cases same : other = device
      · subst same
        simpa using here
      · have outside : unit ∉ s.manager.swapsByProcSwaps other := fun inside => by
          rw [(consistent.chains other).members, consistent.keys, kernel] at inside
          exact same (some.inj inside).symm
        simpa [same, List.erase_of_not_mem outside] using here

theorem Consistent.forget (unit : CString)
    (loose : (s.manager.swap unit).parametersProcSwaps.what = none) :
    Consistent
      ⟨{ s.manager with
          unitsByType := s.manager.unitsByType.erase unit
          swap := Function.update s.manager.swap unit swapInit
          loadQueue := s.manager.loadQueue.erase unit }, s.sharing⟩ where
  sound := consistent.sound
  listed := by
    refine ⟨consistent.listed.nodup.erase unit, fun other absent => ?_⟩
    by_cases same : other = unit
    · simp [same]
    · have before := consistent.listed.unlisted other fun present =>
        absent ((List.mem_erase_of_ne same).mpr present)
      simpa [same] using before
  keys := by
    intro other
    refine (consistent.keys other).trans ?_
    by_cases same : other = unit
    · simp [same, loose, swapInit]
    · simp [same]
  chains := consistent.chains

end

theorem swapUnsetProcSwaps_loose (m : SwapManager) (unit : CString) :
    ((swapUnsetProcSwaps m unit).swap unit).parametersProcSwaps.what = none := by
  cases kernel : (m.swap unit).parametersProcSwaps.what with
  | none => simp [swapUnsetProcSwaps, kernel]
  | some device => simp [swapUnsetProcSwaps, kernel, SwapManager.update]

section

variable (consistent : s.Consistent)
include consistent

theorem free_cases (unit : CString) :
    ∃ s', s.free unit = some s' ∧ s'.manager = Swaps.unitFree s.manager unit ∧
      ((unit ∈ s.manager.loadQueue -> s.sharing.key unit = none) -> s'.Consistent) ∧
      (unit ∈ s.manager.loadQueue -> s'.sharing = s.sharing) := by
  unfold free
  by_cases stub : unit ∈ s.manager.loadQueue
  · refine ⟨_, if_pos stub, rfl, fun loose => ?_, fun _ => rfl⟩
    have forgotten := consistent.forget unit ((consistent.keys unit).symm.trans (loose stub))
    simpa only [Swaps.unitFree, if_pos stub] using forgotten
  · obtain ⟨sharing, left, unset⟩ := unsetProcSwaps_consistent consistent unit
    refine ⟨_, by rw [if_neg stub, left, map_some], rfl, fun _ => ?_, fun queued => absurd queued stub⟩
    have forgotten := unset.forget unit (swapUnsetProcSwaps_loose s.manager unit)
    simpa only [Swaps.unitFree, if_neg stub] using forgotten

theorem load_consistent (pulled : List PulledIn) :
    Consistent ⟨managerDispatchLoadQueue s.manager pulled, s.sharing⟩ := by
  have each : Consistent ⟨pulled.foldl pullIn s.manager, s.sharing⟩ := by
    refine List.foldlRecOn (motive := fun m => Consistent ⟨m, s.sharing⟩) pulled pullIn consistent ?_
    intro m here first _
    by_cases known : first.unit ∈ m.unitsByType
    · simpa [pullIn, known] using here
    · simpa [pullIn, known] using here.unitNew known first.what
  exact each.manager _ ⟨each.listed.nodup, each.listed.unlisted⟩ (fun _ => rfl) rfl

theorem following_chain {device : CString} {unit : CString}
    (mem : unit ∈ s.manager.swapsByProcSwaps device) (single : ∀ a ∈ s.manager.swapsByProcSwaps device,
      ∀ b ∈ s.manager.swapsByProcSwaps device, s.leads a = true -> s.leads b = true -> a = b) :
    s.following unit =
      if chief s.leads (s.manager.swapsByProcSwaps device) = some unit then none
      else chief s.leads (s.manager.swapsByProcSwaps device) := by
  have chain := consistent.chains device
  refine following_lists chain.lists ?_ single mem
  have inside : s.manager.swapsByProcSwaps device ⊆ s.manager.unitsByType := by
    intro other here
    by_contra absent
    rw [chain.members, consistent.keys, consistent.listed.unlisted other absent] at here
    cases here
  exact (chain.lists.nodup.subperm inside).length_le

end

end SwapLists

end Systemd.Swaps
