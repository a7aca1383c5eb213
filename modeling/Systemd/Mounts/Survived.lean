import Systemd.Mounts.Reexecuted

set_option autoImplicit false

namespace Systemd.Coldplug

open Serialization (ItemKey)
open Mounts (MountState MountExecCommand MountLine MountManager)
open Swaps (SwapState SwapLine SwapManager PulledIn)

section swaps

def ofSwaps (m : SwapManager) : Units SwapState SwapExecCommand where
  unitsByType := m.unitsByType
  unit := fun name => { swapType.init with fromTable := (m.swap name).fromProcSwaps }
  otherNames := m.otherNames

variable (m : SwapManager)

theorem swap_refused (name : CString) :
    refused name (m.unitsByType.length + m.otherNames) = (Swaps.unitAddName m name).isSome := by
  unfold refused Swaps.unitAddName
  by_cases wrong : unitNameIsTemplate name ∨ unitNameIsValid name false = false ∨
      unitNameToInstance name ≠ some none
  · rw [if_pos wrong]
    rcases wrong with wrong | wrong | wrong <;> simp [wrong]
  · rw [if_neg wrong]
    simp only [not_or] at wrong
    obtain ⟨template, valid, instanced⟩ := wrong
    by_cases full : m.unitsByType.length + m.otherNames ≥ managerMaxNames
    · simp [full]
    · simp [template, valid, instanced, full]

theorem described_marks (unit device : CString) (priority : Int) :
    ofSwaps ((Swaps.chainProcSwaps m unit device).update unit
        (Swaps.fromProcSwapsLine device priority false false false false)) =
      (ofSwaps m).update unit fun u => { u with fromTable := true } := by
  obtain ⟨units, swaps⟩ := Swaps.chainProcSwaps_eq m unit device
  have others : (Swaps.chainProcSwaps m unit device).otherNames = m.otherNames := by
    unfold Swaps.chainProcSwaps
    split
    · rfl
    · rfl
  refine Units.ext units (funext fun other => ?_) others
  by_cases same : other = unit
  · simp [ofSwaps, same, Swaps.fromProcSwapsLine]
  · simp [ofSwaps, same, swaps]

theorem swapAddOne_marks (what device : CString) (priority : Int) :
    ofSwaps (Swaps.swapAddOne m what (some device) priority false false false false).1 =
      (ofSwaps m).mark swapType (Swaps.unitOf what) := by
  have no := swap_refused m (Swaps.unitOf what)
  unfold Swaps.swapAddOne
  simp only
  generalize Swaps.unitOf what = unit at no
  by_cases named : unit ∈ m.unitsByType
  · have marked : (ofSwaps m).mark swapType unit =
        (ofSwaps m).update unit fun u => { u with fromTable := true } := by
      simp [Units.mark, Units.managerLoadUnit, ofSwaps, named]
    rw [marked]
    by_cases elsewhere : (m.swap unit).elsewhere device = true
    · have known : (m.swap unit).fromProcSwaps = true := ((Bool.and_eq_true _ _).mp elsewhere).1
      simp only [named, elsewhere, Option.any_some, and_self, if_true]
      refine Units.ext rfl (funext fun other => ?_) rfl
      by_cases same : other = unit
      · simp [ofSwaps, same, known]
      · simp [ofSwaps, same]
    · simp only [named, elsewhere, Option.any_some, true_and, if_true, Bool.false_eq_true, if_false]
      exact described_marks m unit device priority
  · cases failed : Swaps.unitAddName m unit with
    | some r =>
      rw [failed] at no
      simp [Units.mark, Units.managerLoadUnit, ofSwaps, named, no]
    | none =>
      have marked : (ofSwaps m).mark swapType unit =
          (ofSwaps (Swaps.unitNew m unit what)).update unit fun u => { u with fromTable := true } := by
        rw [failed] at no
        have made : ofSwaps (Swaps.unitNew m unit what) =
            { ofSwaps m with
              unitsByType := unit :: m.unitsByType
              unit := Function.update (ofSwaps m).unit unit swapType.init } := by
          refine Units.ext rfl (funext fun other => ?_) rfl
          by_cases same : other = unit
          · simp [ofSwaps, same, Swaps.unitNew, Swaps.swapInit, TableType.init]
          · simp [ofSwaps, same, Swaps.unitNew]
        rw [made]
        simp [Units.mark, Units.managerLoadUnit, ofSwaps, named, no]
      rw [marked]
      simp only [named, false_and, if_false]
      exact described_marks (Swaps.unitNew m unit what) unit device priority

def SwapListed (table : List SwapLine) (name : CString) : Prop :=
  ∃ line ∈ table, name ∈ line.names.map Swaps.unitOf

def SwapTaken (table : List SwapLine) (name : CString) : Prop :=
  ∃ line ∈ table, line.backing ≠ .unknownDevice ∧
    name ∈ line.names.map Swaps.unitOf

theorem SwapTaken.listed {table : List SwapLine} {name : CString} (taken : SwapTaken table name) :
    SwapListed table name := by
  obtain ⟨line, mem, _, named⟩ := taken
  exact ⟨line, mem, named⟩

theorem addNames_enumerated (line : SwapLine) (names : List CString) {taken : CString -> Prop}
    (soFar : SwapManager × Option RegistryErrno)
    (enumerated : Enumerated swapType taken (ofSwaps soFar.1)) :
    Enumerated swapType (fun name => taken name ∨ name ∈ names.map Swaps.unitOf)
      (ofSwaps (names.foldl (Swaps.addName line false) soFar).1) := by
  induction names generalizing soFar taken with
  | nil => exact enumerated.congr fun name => by simp
  | cons what rest ih =>
    have next : Enumerated swapType (fun name => taken name ∨ name = Swaps.unitOf what)
        (ofSwaps (Swaps.addName line false soFar what).1) := by
      change Enumerated _ _ (ofSwaps
        (Swaps.swapAddOne soFar.1 what (some line.device) line.priority false false false false).1)
      rw [swapAddOne_marks]
      exact mark_enumerated enumerated _
    exact (ih _ next).congr fun name => by simp [or_assoc]

theorem swapProcessNewSwap_enumerated (line : SwapLine) (done : List SwapLine) (m : SwapManager)
    (enumerated : Enumerated swapType (SwapTaken done) (ofSwaps m)) :
    Enumerated swapType (SwapTaken (done ++ [line]))
      (ofSwaps (Swaps.swapProcessNewSwap m line false).1) := by
  have more (name : CString) : SwapTaken (done ++ [line]) name ↔ SwapTaken done name ∨
      (line.backing ≠ .unknownDevice ∧ name ∈ line.names.map Swaps.unitOf) := by
    simp only [SwapTaken, List.mem_append, List.mem_singleton, or_and_right, exists_or,
      exists_eq_left]
  unfold Swaps.swapProcessNewSwap
  cases backing : line.backing with
  | unknownDevice => exact enumerated.congr fun name => by simp [more, backing]
  | file =>
    exact (addNames_enumerated line line.names (m, none) enumerated).congr fun name => by
      simp [more, backing]
  | device d =>
    exact (addNames_enumerated line line.names (m, none) enumerated).congr fun name => by
      simp [more, backing]

theorem swapLines_enumerated (table done : List SwapLine) (soFar : SwapManager × Option RegistryErrno)
    (enumerated : Enumerated swapType (SwapTaken done) (ofSwaps soFar.1)) :
    Enumerated swapType (SwapTaken (done ++ table))
      (ofSwaps (table.foldl (Swaps.readLine false) soFar).1) := by
  induction table generalizing soFar done with
  | nil => simpa using enumerated
  | cons line rest ih =>
    have next := swapProcessNewSwap_enumerated line done soFar.1 enumerated
    simpa using ih (done ++ [line]) (Swaps.readLine false soFar line) next

-- Nothing is known of the table before it is read.
def Unmarked (m : SwapManager) : Prop := ∀ name, (m.swap name).fromProcSwaps = false

variable {m : SwapManager}

theorem unitNew_unmarked (unmarked : Unmarked m) (unit what : CString) :
    Unmarked (Swaps.unitNew m unit what) := by
  intro name
  by_cases same : name = unit
  · simp [Swaps.unitNew, same, Swaps.swapInit]
  · simpa [Swaps.unitNew, same] using unmarked name

theorem addFstabSwap_unmarked (unmarked : Unmarked m) (line : FstabSwap) :
    Unmarked (addFstabSwap m line) := by
  unfold addFstabSwap
  obtain ⟨r, failed⟩ | added := Swaps.swapAddOne_cases m line.what none line.priority line.noauto
    line.nofail line.handle false
  · rw [failed]
    exact unmarked
  · rw [added]
    have present : Unmarked (Swaps.present m line.what) := by
      unfold Swaps.present
      split
      · exact unmarked
      · exact unitNew_unmarked unmarked _ _
    intro name
    by_cases same : name = Swaps.unitOf line.what
    · simpa [same, Swaps.fromEtcFstabLine] using present (Swaps.unitOf line.what)
    · simpa [same] using present name

theorem swapEnumerate_enumerated (early : Early PulledIn FstabSwap) (table : List SwapLine) :
    Enumerated swapType (SwapTaken table) (swapEnumerate early table) ∧
      Blank swapType (swapEnumerate early table) := by
  refine ⟨?_, fun name => ⟨_, rfl⟩⟩
  have pulled : Unmarked
      (early.pulled.foldl Swaps.pullIn { SwapManager.empty with otherNames := early.otherNames }) := by
    refine List.foldlRecOn (motive := Unmarked) early.pulled Swaps.pullIn (fun _ => rfl) ?_
    intro m unmarked first _
    unfold Swaps.pullIn
    split
    · exact unmarked
    · exact unitNew_unmarked unmarked _ _
  have unmarked := List.foldlRecOn (motive := Unmarked) early.fstab addFstabSwap pulled
    fun m unmarked line _ => addFstabSwap_unmarked unmarked line
  have first : Enumerated swapType (SwapTaken []) (ofSwaps (early.fstab.foldl addFstabSwap
      (early.pulled.foldl Swaps.pullIn { SwapManager.empty with otherNames := early.otherNames }))) := by
    refine ⟨fun name _ => ?_, fun name _ => ?_, fun name _ line => ?_⟩
    · simp [ofSwaps, unmarked name, TableType.init]
    · simp [ofSwaps, unmarked name, SwapTaken]
    · simp [SwapTaken] at line
  exact swapLines_enumerated table [] (_, none) first

end swaps

/-- What a mount unit says of itself agrees with the table, where that is what the new manager goes
by. -/
def MountAgrees (early : Early CString MountLine) (table : List MountLine) (front : List Step)
    (name : CString) (old : TableUnit MountState MountExecCommand) : Prop :=
  Reaches mountType (mountEnumerate early table) front name (mountSerialize old) -> old.state ≠ .dead ->
    (old.state = .mounted ↔ Mounts.Listed table name)

def SwapAgrees (early : Early PulledIn FstabSwap) (table : List SwapLine) (front : List Step)
    (name : CString) (old : TableUnit SwapState SwapExecCommand) : Prop :=
  (Reaches swapType (swapEnumerate early table) front name (swapSerialize old) -> old.state ≠ .dead ->
    (old.state = .active ↔ SwapListed table name)) ∧
  ((Reaches swapType (swapEnumerate early table) front name (swapSerialize old) -> old.state = .dead) ->
    SwapListed table name -> SwapTaken table name)

def restartMounts (early : Early CString MountLine) (table : List MountLine) (front : List Step)
    (name : CString) (old : TableUnit MountState MountExecCommand) (back : List Step)
    (watched : CString -> Bool) : Units MountState MountExecCommand :=
  startUp mountType (mountEnumerate early table) (front ++ .record name (mountSerialize old) :: back)
    watched

def restartSwaps (early : Early PulledIn FstabSwap) (table : List SwapLine) (front : List Step)
    (name : CString) (old : TableUnit SwapState SwapExecCommand) (back : List Step)
    (watched : CString -> Bool) : Units SwapState SwapExecCommand :=
  startUp swapType (swapEnumerate early table) (front ++ .record name (swapSerialize old) :: back) watched

variable {front back : List Step} {name : CString}

theorem restartMounts_mounted {early : Early CString MountLine} {table : List MountLine}
    {watched : CString -> Bool} {old : TableUnit MountState MountExecCommand} (idle : old.controlPid ≤ 0)
    (before : Spared name front) (behind : Spared name back)
    (there : name ∈ (restartMounts early table front name old back watched).unitsByType) :
    (((restartMounts early table front name old back watched).unit name).state = .mounted ↔
      Mounts.Listed table name) ↔ MountAgrees early table front name old := by
  obtain ⟨enumerated, blank⟩ := mountEnumerate_enumerated early table
  obtain ⟨reads, unread⟩ :=
    startUp_present mountType_readable enumerated blank idle before behind watched there
  unfold MountAgrees
  by_cases reached : Reaches mountType (mountEnumerate early table) front name (mountSerialize old)
  · have apart : old.state = .mounted -> old.state ≠ .dead := fun mounted dead => by
      rw [mounted] at dead
      cases dead
    refine (iff_congr (reads reached) Iff.rfl).trans ?_
    change (old.state = .mounted ∨ old.state = .dead ∧ Mounts.Listed table name ↔ _) ↔ _
    tauto
  · exact iff_of_true (unread reached) fun reads => absurd reads reached

theorem restartSwaps_active {early : Early PulledIn FstabSwap} {table : List SwapLine}
    {watched : CString -> Bool} {old : TableUnit SwapState SwapExecCommand} (idle : old.controlPid ≤ 0)
    (before : Spared name front) (behind : Spared name back)
    (there : name ∈ (restartSwaps early table front name old back watched).unitsByType) :
    (((restartSwaps early table front name old back watched).unit name).state = .active ↔
      SwapListed table name) ↔ SwapAgrees early table front name old := by
  obtain ⟨enumerated, blank⟩ := swapEnumerate_enumerated early table
  obtain ⟨reads, unread⟩ :=
    startUp_present swapType_readable enumerated blank idle before behind watched there
  have listed : SwapTaken table name -> SwapListed table name := SwapTaken.listed
  unfold SwapAgrees
  by_cases reached : Reaches swapType (swapEnumerate early table) front name (swapSerialize old)
  · refine (iff_congr (reads reached) Iff.rfl).trans ?_
    change (old.state = .active ∨ old.state = .dead ∧ SwapTaken table name ↔ _) ↔ _
    by_cases dead : old.state = .dead
    · simpa [dead, reached] using iff_def.trans (and_iff_right listed)
    · simp [dead, reached]
  · refine (iff_congr (unread reached) Iff.rfl).trans ?_
    simpa [reached] using iff_def.trans (and_iff_right listed)

/-- A unit without a process comes up as the table has it exactly if what its record says agrees with
the table. -/
theorem changes_survive (watched : CString -> Bool) (before : Spared name front)
    (behind : Spared name back) :
    (∀ (early : Early CString MountLine) (table : List MountLine)
      (old : TableUnit MountState MountExecCommand), old.controlPid ≤ 0 ->
      name ∈ (restartMounts early table front name old back watched).unitsByType ->
      ((((restartMounts early table front name old back watched).unit name).state = .mounted ↔
        Mounts.Listed table name) ↔ MountAgrees early table front name old)) ∧
    (∀ (early : Early PulledIn FstabSwap) (table : List SwapLine)
      (old : TableUnit SwapState SwapExecCommand), old.controlPid ≤ 0 ->
      name ∈ (restartSwaps early table front name old back watched).unitsByType ->
      ((((restartSwaps early table front name old back watched).unit name).state = .active ↔
        SwapListed table name) ↔ SwapAgrees early table front name old)) := by
  constructor
  next =>
    intro early table old idle there
    exact restartMounts_mounted idle before behind there
  next =>
    intro early table old idle there
    exact restartSwaps_active idle before behind there

def unmountedBehind : TableUnit MountState MountExecCommand :=
  { mountType.init with state := .mounted }

def nothingEarly {A B : Type} : Early A B := ⟨0, [], []⟩

theorem unmounted_there :
    CString.ofString "mnt.mount" ∈ (restartMounts nothingEarly [] [] (.ofString "mnt.mount")
      unmountedBehind [] fun _ => true).unitsByType := by
  decide

theorem changes_survive_unmounted :
    (((restartMounts nothingEarly [] [] (.ofString "mnt.mount") unmountedBehind [] fun _ => true).unit
        (.ofString "mnt.mount")).state = .mounted ↔ Mounts.Listed [] (.ofString "mnt.mount")) ↔
      MountAgrees nothingEarly [] [] (.ofString "mnt.mount") unmountedBehind :=
  (changes_survive (fun _ => true) (by simp [Spared]) (by simp [Spared])).1 nothingEarly []
    unmountedBehind (by decide) unmounted_there

/-- The unit stays mounted, and nothing tells the manager that it is not. -/
theorem unmounted_stays :
    ¬ ∀ (early : Early CString MountLine) (table : List MountLine) (front back : List Step)
      (watched : CString -> Bool) (name : CString) (old : TableUnit MountState MountExecCommand),
      old.controlPid ≤ 0 -> Spared name front -> Spared name back ->
      name ∈ (restartMounts early table front name old back watched).unitsByType ->
      (((restartMounts early table front name old back watched).unit name).state = .mounted ↔
        Mounts.Listed table name) := by
  intro always
  have listed := (always nothingEarly [] [] [] (fun _ => true) (.ofString "mnt.mount") unmountedBehind
    (by decide) (by simp [Spared]) (by simp [Spared]) unmounted_there).mp (by decide)
  simp [Mounts.Listed] at listed

end Systemd.Coldplug
