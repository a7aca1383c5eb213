import Systemd.Mounts.Swap

set_option autoImplicit false

namespace Systemd.Swaps

open List Option

namespace SwapManager

variable (m : SwapManager)

@[simp] theorem update_unitsByType (unit : CString) (change : Swap -> Swap) :
    (m.update unit change).unitsByType = m.unitsByType :=
  rfl

@[simp] theorem update_self (unit : CString) (change : Swap -> Swap) :
    (m.update unit change).swap unit = change (m.swap unit) := by
  simp [update]

@[simp] theorem update_of_ne {unit other : CString} (change : Swap -> Swap) (ne : other ≠ unit) :
    (m.update unit change).swap other = m.swap other := by
  simp [update, ne]

structure Listed (m : SwapManager) : Prop where
  nodup : m.unitsByType.Nodup
  unlisted : ∀ unit, unit ∉ m.unitsByType -> m.swap unit = swapInit

variable {m : SwapManager} {unit : CString}

theorem Listed.update (listed : m.Listed) (present : unit ∈ m.unitsByType) (change : Swap -> Swap) :
    (m.update unit change).Listed := by
  refine ⟨listed.nodup, fun other absent => ?_⟩
  have ne : other ≠ unit := fun same => absent (same ▸ present)
  rw [update_of_ne m change ne]
  exact listed.unlisted other absent

theorem Listed.unitNew (listed : m.Listed) (absent : unit ∉ m.unitsByType) (what : CString) :
    (unitNew m unit what).Listed := by
  refine ⟨nodup_cons.mpr ⟨absent, listed.nodup⟩, fun other missing => ?_⟩
  obtain ⟨ne, missing⟩ := not_or.mp (mt mem_cons.mpr missing)
  simpa [Swaps.unitNew, ne] using listed.unlisted other missing

end SwapManager

open SwapManager

section marks

structure Marked (count : Nat) (before after : Swap) : Prop where
  state : after.state = before.state
  active : after.isActive = (before.isActive || decide (0 < count))
  just : after.justActivated =
    if count = 0 then before.justActivated else decide (count = 1) && !before.fromProcSwaps
  known : after.fromProcSwaps = (before.fromProcSwaps || decide (0 < count))

theorem Marked.none (s : Swap) : Marked 0 s s where
  state := rfl
  active := by simp
  just := by simp
  known := by simp

theorem Marked.one (device : CString) (priority : Int) (noauto nofail handle : Bool) (s : Swap) :
    Marked 1 s (fromProcSwapsLine device priority noauto nofail handle true s) where
  state := rfl
  active := by simp [fromProcSwapsLine]
  just := by simp [fromProcSwapsLine]
  known := by simp [fromProcSwapsLine]

theorem Marked.trans {first second : Nat} {before between after : Swap}
    (marked : Marked first before between) (again : Marked second between after) :
    Marked (first + second) before after := by
  constructor
  case state => rw [again.state, marked.state]
  case active =>
    rw [again.active, marked.active]
    by_cases zero : first = 0 <;> simp [zero, Nat.pos_iff_ne_zero]
  case known =>
    rw [again.known, marked.known]
    by_cases zero : first = 0 <;> simp [zero, Nat.pos_iff_ne_zero]
  case just =>
    rw [again.just, marked.just, marked.known]
    by_cases zero : first = 0
    next => simp [zero]
    next =>
      by_cases last : second = 0
      next => simp [zero, last]
      next =>
        have many : first + second ≠ 1 := by omega
        simp [zero, last, many, Nat.pos_iff_ne_zero]

/-- The table is read into the manager: the units have been marked once for each of their names. -/
structure Read (names : List CString) (m after : SwapManager) : Prop where
  listed : after.Listed
  grows : ∀ unit ∈ m.unitsByType, unit ∈ after.unitsByType
  marked : ∀ unit, Marked (names.count unit) (m.swap unit) (after.swap unit)

variable {m : SwapManager}

theorem Read.nothing (listed : m.Listed) : Read [] m m where
  listed := listed
  grows := fun _ present => present
  marked := fun unit => Marked.none (m.swap unit)

theorem Read.append {names more : List CString} {between after : SwapManager}
    (read : Read names m between) (next : Read more between after) : Read (names ++ more) m after where
  listed := next.listed
  grows := fun unit present => next.grows unit (read.grows unit present)
  marked := fun unit => by
    rw [count_append]
    exact (read.marked unit).trans (next.marked unit)

end marks

section adding

variable {m : SwapManager}

theorem chainProcSwaps_eq (m : SwapManager) (unit device : CString) :
    (chainProcSwaps m unit device).unitsByType = m.unitsByType ∧
      (chainProcSwaps m unit device).swap = m.swap := by
  by_cases first : (m.swap unit).parametersProcSwaps.what = none <;> simp [chainProcSwaps, first]

def present (m : SwapManager) (what : CString) : SwapManager :=
  if unitOf what ∈ m.unitsByType then m else unitNew m (unitOf what) what

theorem present_mem (m : SwapManager) (what : CString) :
    unitOf what ∈ (present m what).unitsByType := by
  by_cases known : unitOf what ∈ m.unitsByType <;> simp [present, known, unitNew]

variable (what : CString)

theorem present_grows {unit : CString} (known : unit ∈ m.unitsByType) :
    unit ∈ (present m what).unitsByType := by
  by_cases named : unitOf what ∈ m.unitsByType <;> simp [present, named, known, unitNew]

theorem present_listed (listed : m.Listed) : (present m what).Listed := by
  by_cases known : unitOf what ∈ m.unitsByType
  next => simpa [present, known] using listed
  next => simpa [present, known] using listed.unitNew known what

theorem present_marked (listed : m.Listed) (unit : CString) :
    Marked 0 (m.swap unit) ((present m what).swap unit) := by
  by_cases known : unitOf what ∈ m.unitsByType
  next => simpa [present, known] using Marked.none (m.swap unit)
  next =>
    by_cases same : unit = unitOf what
    next =>
      subst same
      rw [listed.unlisted (unitOf what) known]
      constructor <;> simp [present, known, unitNew, swapInit]
    next => simpa [present, known, unitNew, same] using Marked.none (m.swap unit)

theorem swapAddOne_cases (m : SwapManager) (what : CString) (whatProcSwaps : Option CString)
    (priority : Int) (noauto nofail handle setFlags : Bool) :
    (∃ r, swapAddOne m what whatProcSwaps priority noauto nofail handle setFlags = (m, some r)) ∨
      swapAddOne m what whatProcSwaps priority noauto nofail handle setFlags =
        (match whatProcSwaps with
        | some device =>
          (chainProcSwaps (present m what) (unitOf what) device).update (unitOf what)
            (fromProcSwapsLine device priority noauto nofail handle setFlags)
        | none =>
          (present m what).update (unitOf what)
            (fromEtcFstabLine what priority noauto nofail handle), none) := by
  rw [swapAddOne]
  by_cases elsewhere : unitOf what ∈ m.unitsByType ∧
      whatProcSwaps.any (m.swap (unitOf what)).elsewhere
  next => exact Or.inl ⟨.eexist, if_pos elsewhere⟩
  next =>
    rw [if_neg elsewhere]
    cases failed : if unitOf what ∈ m.unitsByType then none else unitAddName m (unitOf what) with
    | some r => exact Or.inl ⟨r, rfl⟩
    | none => cases whatProcSwaps <;> exact Or.inr rfl

structure Kept (m after : SwapManager) : Prop where
  listed : after.Listed
  state : ∀ unit, (after.swap unit).state = (m.swap unit).state

variable {after : SwapManager}

theorem Kept.trans {between : SwapManager} (kept : Kept m between) (next : Kept between after) :
    Kept m after where
  listed := next.listed
  state := fun unit => (next.state unit).trans (kept.state unit)

theorem Kept.update {unit : CString} (kept : Kept m after) (present : unit ∈ after.unitsByType)
    (change : Swap -> Swap) (same : ∀ s, (change s).state = s.state) :
    Kept m (after.update unit change) where
  listed := kept.listed.update present change
  state := fun other => by
    by_cases self : other = unit
    next =>
      subst self
      rw [update_self, same]
      exact kept.state other
    next =>
      rw [update_of_ne after change self]
      exact kept.state other

theorem present_kept (listed : m.Listed) : Kept m (present m what) where
  listed := present_listed what listed
  state := fun unit => (present_marked what listed unit).state

theorem chain_kept (kept : Kept m after) (unit device : CString) :
    Kept m (chainProcSwaps after unit device) := by
  obtain ⟨units, swaps⟩ := chainProcSwaps_eq after unit device
  refine ⟨⟨?_, ?_⟩, ?_⟩
  next => simpa [units] using kept.listed.nodup
  next => simpa [units, swaps] using kept.listed.unlisted
  next => simpa [swaps] using kept.state

theorem swapAddOne_kept (listed : m.Listed) (whatProcSwaps : Option CString) (priority : Int)
    (noauto nofail handle setFlags : Bool) :
    Kept m (swapAddOne m what whatProcSwaps priority noauto nofail handle setFlags).1 := by
  have new := present_kept what listed
  have named := present_mem m what
  obtain ⟨r, failed⟩ | added :=
    swapAddOne_cases m what whatProcSwaps priority noauto nofail handle setFlags
  next =>
    rw [failed]
    exact ⟨listed, fun _ => rfl⟩
  next =>
    rw [added]
    cases whatProcSwaps with
    | none => exact new.update named _ fun _ => rfl
    | some device =>
      obtain ⟨units, -⟩ := chainProcSwaps_eq (present m what) (unitOf what) device
      have chained := chain_kept new (unitOf what) device
      exact chained.update (units ▸ named) _ fun _ => rfl

theorem swapAddOne_read (listed : m.Listed) (device : CString) (priority : Int)
    (ok : (swapAddOne m what (some device) priority false false false true).2 = none) :
    Read [unitOf what] m (swapAddOne m what (some device) priority false false false true).1 := by
  have kept := (swapAddOne_kept what listed (some device) priority false false false true).listed
  obtain ⟨r, failed⟩ | added :=
    swapAddOne_cases m what (some device) priority false false false true
  next => simp [failed] at ok
  next =>
    rw [added] at kept ⊢
    obtain ⟨units, swaps⟩ := chainProcSwaps_eq (present m what) (unitOf what) device
    refine ⟨kept, fun unit known => ?_, fun unit => ?_⟩
    next => simpa [units] using present_grows what known
    next =>
      have new := present_marked what listed unit
      by_cases same : unit = unitOf what
      next =>
        subst same
        simpa [swaps] using new.trans (Marked.one device priority false false false _)
      next => simpa [swaps, same, Ne.symm same] using new

end adding

section reading

variable {m : SwapManager}

variable (line : SwapLine) (lines : List SwapLine) (setFlags : Bool)

theorem names_read (names : List CString) (r : Option RegistryErrno) (listed : m.Listed)
    (ok : (names.foldl (addName line true) (m, r)).2 = none) :
    r = none ∧ Read (names.map unitOf) m (names.foldl (addName line true) (m, r)).1 := by
  induction names generalizing m r with
  | nil => exact ⟨ok, Read.nothing listed⟩
  | cons what rest ih =>
    rw [foldl_cons, addName] at ok ⊢
    have kept := swapAddOne_kept what listed (some line.device) line.priority
      false false false true
    obtain ⟨clean, rest⟩ := ih _ kept.listed ok
    obtain ⟨added, clean⟩ := or_eq_none_iff.mp clean
    have first := swapAddOne_read what listed line.device line.priority added
    exact ⟨clean, first.append rest⟩

theorem names_kept (names : List CString) (r : Option RegistryErrno) (listed : m.Listed) :
    Kept m (names.foldl (addName line setFlags) (m, r)).1 := by
  induction names generalizing m r with
  | nil => exact ⟨listed, fun _ => rfl⟩
  | cons what rest ih =>
    have kept := swapAddOne_kept what listed (some line.device) line.priority
      false false false setFlags
    exact kept.trans (ih _ kept.listed)

theorem swapProcessNewSwap_kept (listed : m.Listed) :
    Kept m (swapProcessNewSwap m line setFlags).1 := by
  rw [swapProcessNewSwap]
  cases line.backing with
  | unknownDevice => exact ⟨listed, fun _ => rfl⟩
  | file => exact names_kept line setFlags line.names none listed
  | device d => exact names_kept line setFlags line.names none listed

theorem swapProcessNewSwap_read (listed : m.Listed) (ok : (swapProcessNewSwap m line true).2 = none) :
    Read (line.names.map unitOf) m (swapProcessNewSwap m line true).1 := by
  rw [swapProcessNewSwap] at ok ⊢
  cases backing : line.backing with
  | unknownDevice => simp [backing] at ok
  | file => exact (names_read line line.names none listed (by simpa [backing] using ok)).2
  | device d => exact (names_read line line.names none listed (by simpa [backing] using ok)).2

def readLine (setFlags : Bool) (soFar : SwapManager × Option RegistryErrno) (line : SwapLine) :
    SwapManager × Option RegistryErrno :=
  ((swapProcessNewSwap soFar.1 line setFlags).1, (swapProcessNewSwap soFar.1 line setFlags).2.or soFar.2)

theorem lines_kept (r : Option RegistryErrno) (listed : m.Listed) :
    Kept m (lines.foldl (readLine setFlags) (m, r)).1 := by
  induction lines generalizing m r with
  | nil => exact ⟨listed, fun _ => rfl⟩
  | cons line rest ih =>
    have kept := swapProcessNewSwap_kept line setFlags listed
    exact kept.trans (ih _ kept.listed)

theorem lines_read (r : Option RegistryErrno) (listed : m.Listed)
    (ok : (lines.foldl (readLine true) (m, r)).2 = none) :
    r = none ∧ Read (denoted lines) m (lines.foldl (readLine true) (m, r)).1 := by
  induction lines generalizing m r with
  | nil => exact ⟨ok, Read.nothing listed⟩
  | cons line rest ih =>
    rw [foldl_cons, readLine] at ok ⊢
    obtain ⟨clean, rest⟩ := ih _ (swapProcessNewSwap_kept line true listed).listed ok
    obtain ⟨added, clean⟩ := or_eq_none_iff.mp clean
    exact ⟨clean, (swapProcessNewSwap_read line listed added).append rest⟩

theorem swapLoadProcSwaps_kept (listed : m.Listed) : Kept m (swapLoadProcSwaps m lines setFlags).1 :=
  lines_kept lines setFlags none listed

theorem swapLoadProcSwaps_read (listed : m.Listed) (ok : (swapLoadProcSwaps m lines true).2 = none) :
    Read (denoted lines) m (swapLoadProcSwaps m lines true).1 :=
  (lines_read lines none listed ok).2

theorem pullIn_read (pulled : PulledIn) (listed : m.Listed) : Read [] m (pullIn m pulled) := by
  by_cases known : pulled.unit ∈ m.unitsByType
  next => simpa [pullIn, known] using Read.nothing listed
  next =>
    refine ⟨?_, fun unit present => ?_, fun unit => ?_⟩
    next => simpa [pullIn, known] using listed.unitNew known pulled.what
    next => simp [pullIn, known, unitNew, present]
    next =>
      by_cases same : unit = pulled.unit
      next =>
        subst same
        rw [listed.unlisted pulled.unit known]
        constructor <;> simp [pullIn, known, unitNew, swapInit]
      next => simpa [pullIn, known, unitNew, same] using Marked.none (m.swap unit)

theorem managerDispatchLoadQueue_read (pulled : List PulledIn) (listed : m.Listed) :
    Read [] m (managerDispatchLoadQueue m pulled) := by
  have folded : Read [] m (pulled.foldl pullIn m) := by
    induction pulled generalizing m with
    | nil => exact Read.nothing listed
    | cons first rest ih =>
      have read := pullIn_read first listed
      exact read.append (ih read.listed)
  exact ⟨⟨folded.listed.nodup, folded.listed.unlisted⟩, folded.grows, folded.marked⟩

end reading

section following

variable {m : SwapManager}

def followedState (s : Swap) : SwapState :=
  if s.isActive = false then
    if s.state = .active then
      if s.failure then .failed else .dead
    else
      s.state
  else if s.justActivated ∧ (s.state = .dead ∨ s.state = .failed) then
    .active
  else
    s.state

/-- What a step leaves of the units: the others stay, and of its own unit it changes nothing that the
loop reads later. -/
structure Touches (unit : CString) (m after : SwapManager) : Prop where
  units : after.unitsByType = m.unitsByType
  others : ∀ other, other ≠ unit -> after.swap other = m.swap other

variable {unit : CString}

theorem Touches.trans {between after : SwapManager} (touched : Touches unit m between)
    (next : Touches unit between after) : Touches unit m after where
  units := next.units.trans touched.units
  others := fun other ne => (next.others other ne).trans (touched.others other ne)

theorem update_touches (m : SwapManager) (unit : CString) (change : Swap -> Swap) :
    Touches unit m (m.update unit change) where
  units := rfl
  others := fun _ ne => update_of_ne m change ne

theorem swapUnsetProcSwaps_touches (m : SwapManager) (unit : CString) :
    Touches unit m (swapUnsetProcSwaps m unit) := by
  cases known : (m.swap unit).parametersProcSwaps.what with
  | none => simp only [swapUnsetProcSwaps, known]; exact ⟨rfl, fun _ _ => rfl⟩
  | some device =>
    have touched := update_touches m unit fun s => { s with parametersProcSwaps.what := none }
    simp only [swapUnsetProcSwaps, known]
    exact ⟨touched.units, touched.others⟩

theorem swapUnsetProcSwaps_self (m : SwapManager) (unit : CString) :
    ((swapUnsetProcSwaps m unit).swap unit).failure = (m.swap unit).failure ∧
      ((swapUnsetProcSwaps m unit).swap unit).fromProcSwaps = (m.swap unit).fromProcSwaps := by
  cases known : (m.swap unit).parametersProcSwaps.what with
  | none => simp [swapUnsetProcSwaps, known]
  | some device => simp [swapUnsetProcSwaps, known, update]

theorem swapEnterDead_touches (m : SwapManager) (unit : CString) (success : Bool) :
    Touches unit m (swapEnterDead m unit success) := by
  rw [swapEnterDead, swapSetState]
  exact (update_touches m unit _).trans (update_touches _ unit _)

theorem swapEnterActive_touches (m : SwapManager) (unit : CString) (success : Bool) :
    Touches unit m (swapEnterActive m unit success) := by
  rw [swapEnterActive, swapSetState]
  exact (update_touches m unit _).trans (update_touches _ unit _)

def settle (m : SwapManager) (unit : CString) : SwapManager :=
  let s := m.swap unit
  if s.isActive = false then
    let m := swapUnsetProcSwaps (m.update unit fun s => { s with fromProcSwaps := false }) unit
    match s.state with
    | .active => swapEnterDead m unit true
    | state => swapSetState m unit state
  else if s.justActivated then
    match s.state with
    | .dead | .failed => swapEnterActive m unit true
    | state => swapSetState m unit state
  else
    m

theorem followSwap_eq (m : SwapManager) (unit : CString) :
    followSwap m unit = resetFlags (settle m unit) unit :=
  rfl

theorem settle_gone (gone : (m.swap unit).isActive = false) :
    Touches unit m (settle m unit) ∧
      ((settle m unit).swap unit).state = followedState (m.swap unit) ∧
      ((settle m unit).swap unit).fromProcSwaps = false := by
  have cleared := update_touches m unit fun s => { s with fromProcSwaps := false }
  have unset := cleared.trans (swapUnsetProcSwaps_touches _ unit)
  obtain ⟨failure, known⟩ :=
    swapUnsetProcSwaps_self (m.update unit fun s => { s with fromProcSwaps := false }) unit
  rw [update_self] at failure known
  cases state : (m.swap unit).state
  case active =>
    simp only [settle, gone, state, if_true]
    refine ⟨unset.trans (swapEnterDead_touches _ unit true), ?_, ?_⟩
    next => simp [swapEnterDead, swapSetState, followedState, gone, state, failure]
    next => simp [swapEnterDead, swapSetState, known]
  all_goals
    simp only [settle, gone, state, if_true]
    refine ⟨unset.trans (update_touches _ unit _), ?_, ?_⟩
    next => simp [swapSetState, followedState, gone, state]
    next => simp [swapSetState, known]

theorem settle_listed (up : (m.swap unit).isActive = true) :
    Touches unit m (settle m unit) ∧
      ((settle m unit).swap unit).state = followedState (m.swap unit) ∧
      ((settle m unit).swap unit).fromProcSwaps = (m.swap unit).fromProcSwaps := by
  by_cases just : (m.swap unit).justActivated
  next =>
    cases state : (m.swap unit).state
    case dead | failed =>
      simp only [settle, up, just, state, Bool.true_eq_false, if_true, if_false]
      refine ⟨swapEnterActive_touches m unit true, ?_, ?_⟩
      next => simp [swapEnterActive, swapSetState, followedState, up, just, state]
      next => simp [swapEnterActive, swapSetState]
    all_goals
      simp only [settle, up, just, state, Bool.true_eq_false, if_true, if_false]
      refine ⟨update_touches m unit _, ?_, ?_⟩
      next => simp [swapSetState, followedState, up, state]
      next => simp [swapSetState]
  next =>
    have same : settle m unit = m := by simp [settle, up, just]
    rw [same]
    refine ⟨⟨rfl, fun _ _ => rfl⟩, ?_, rfl⟩
    simp [followedState, up, just]

structure Done (before after : Swap) : Prop where
  state : after.state = followedState before
  inactive : after.isActive = false
  old : after.justActivated = false
  known : before.isActive = true -> after.fromProcSwaps = before.fromProcSwaps

theorem followSwap_done (m : SwapManager) (unit : CString) :
    Touches unit m (followSwap m unit) ∧ Done (m.swap unit) ((followSwap m unit).swap unit) := by
  have reset := update_touches (settle m unit) unit fun s =>
    { s with isActive := false, justActivated := false }
  have flags (s : Swap) (state : ((settle m unit).swap unit).state = followedState s)
      (known : s.isActive = true -> ((settle m unit).swap unit).fromProcSwaps = s.fromProcSwaps) :
      Done s ((followSwap m unit).swap unit) := by
    constructor
    case state => simpa [followSwap_eq, resetFlags] using state
    case inactive => simp [followSwap_eq, resetFlags]
    case old => simp [followSwap_eq, resetFlags]
    case known => simpa [followSwap_eq, resetFlags] using known
  cases up : (m.swap unit).isActive with
  | false =>
    obtain ⟨touched, state, -⟩ := settle_gone up
    refine ⟨touched.trans reset, flags (m.swap unit) state fun listed => ?_⟩
    simp [up] at listed
  | true =>
    obtain ⟨touched, state, known⟩ := settle_listed up
    exact ⟨touched.trans reset, flags (m.swap unit) state fun _ => known⟩

theorem loop_touches (step : SwapManager -> CString -> SwapManager)
    (touches : ∀ m unit, Touches unit m (step m unit)) (units : List CString) (m : SwapManager) :
    (units.foldl step m).unitsByType = m.unitsByType ∧
      ∀ other, other ∉ units -> (units.foldl step m).swap other = m.swap other := by
  induction units generalizing m with
  | nil => simp
  | cons unit rest ih =>
    obtain ⟨listed, others⟩ := ih (step m unit)
    refine ⟨listed.trans (touches m unit).units, fun other missing => ?_⟩
    obtain ⟨ne, missing⟩ := not_or.mp (mt mem_cons.mpr missing)
    exact (others other missing).trans ((touches m unit).others other ne)

theorem loop_handles (step : SwapManager -> CString -> SwapManager)
    (touches : ∀ m unit, Touches unit m (step m unit)) (After : Swap -> Swap -> Prop)
    (handles : ∀ m unit, After (m.swap unit) ((step m unit).swap unit)) {units : List CString}
    (once : units.Nodup) (m : SwapManager) :
    ∀ unit ∈ units, After (m.swap unit) ((units.foldl step m).swap unit) := by
  induction units generalizing m with
  | nil => simp
  | cons first rest ih =>
    obtain ⟨missing, once⟩ := nodup_cons.mp once
    intro unit present
    rw [foldl_cons]
    obtain rfl | later := mem_cons.mp present
    next =>
      rw [(loop_touches step touches rest (step m unit)).2 unit missing]
      exact handles m unit
    next =>
      have ne : unit ≠ first := fun same => missing (same ▸ later)
      have handled := ih once (step m first) unit later
      rwa [(touches m first).others unit ne] at handled

theorem resetFlags_loop (listed : m.Listed) :
    (m.unitsByType.foldl resetFlags m).Listed ∧ ∀ unit,
      ((m.unitsByType.foldl resetFlags m).swap unit).state = (m.swap unit).state ∧
      ((m.unitsByType.foldl resetFlags m).swap unit).isActive = false ∧
      ((m.unitsByType.foldl resetFlags m).swap unit).justActivated = false := by
  have touches (m : SwapManager) (unit : CString) : Touches unit m (resetFlags m unit) :=
    update_touches m unit _
  obtain ⟨units, others⟩ := loop_touches resetFlags touches m.unitsByType m
  have handled := loop_handles resetFlags touches
    (fun before after => after.state = before.state ∧ after.isActive = false ∧
      after.justActivated = false)
    (fun m unit => by simp [resetFlags]) listed.nodup m
  refine ⟨⟨by simpa [units] using listed.nodup, fun unit missing => ?_⟩, fun unit => ?_⟩
  next =>
    rw [units] at missing
    rw [others unit missing]
    exact listed.unlisted unit missing
  next =>
    by_cases present : unit ∈ m.unitsByType
    next => exact handled unit present
    next =>
      rw [others unit present, listed.unlisted unit present]
      exact ⟨rfl, rfl, rfl⟩

theorem followSwap_loop (listed : m.Listed) :
    (m.unitsByType.foldl followSwap m).Listed ∧
      (m.unitsByType.foldl followSwap m).unitsByType = m.unitsByType ∧
      ∀ unit, Done (m.swap unit) ((m.unitsByType.foldl followSwap m).swap unit) := by
  have touches (m : SwapManager) (unit : CString) : Touches unit m (followSwap m unit) :=
    (followSwap_done m unit).1
  obtain ⟨units, others⟩ := loop_touches followSwap touches m.unitsByType m
  have handled := loop_handles followSwap touches Done
    (fun m unit => (followSwap_done m unit).2) listed.nodup m
  refine ⟨⟨by simpa [units] using listed.nodup, fun unit missing => ?_⟩, units, fun unit => ?_⟩
  next =>
    rw [units] at missing
    rw [others unit missing]
    exact listed.unlisted unit missing
  next =>
    by_cases present : unit ∈ m.unitsByType
    next => exact handled unit present
    next =>
      rw [others unit present, listed.unlisted unit present]
      constructor <;> simp [followedState, swapInit]

end following

section events

variable {m : SwapManager}

structure Settled (m : SwapManager) : Prop where
  listed : m.Listed
  inactive : ∀ unit, (m.swap unit).isActive = false
  old : ∀ unit, (m.swap unit).justActivated = false

theorem fdEvent_ok {lines : List SwapLine} (ok : (swapLoadProcSwaps m lines true).2 = none)
    (pulled : List PulledIn) :
    swapFdEvent pulled m lines =
      let loaded := managerDispatchLoadQueue (swapLoadProcSwaps m lines true).1 pulled
      (loaded.unitsByType.foldl followSwap loaded, true) := by
  simp [swapFdEvent, ok]

theorem fdEvent_failed {lines : List SwapLine} {r : RegistryErrno}
    (failed : (swapLoadProcSwaps m lines true).2 = some r) (pulled : List PulledIn) :
    swapFdEvent pulled m lines =
      let loaded := (swapLoadProcSwaps m lines true).1
      (loaded.unitsByType.foldl resetFlags loaded, false) := by
  simp [swapFdEvent, failed]

theorem fdEvent_settled (pulled : List PulledIn) (lines : List SwapLine) (listed : m.Listed) :
    Settled (swapFdEvent pulled m lines).1 := by
  have kept := swapLoadProcSwaps_kept lines true listed
  cases result : (swapLoadProcSwaps m lines true).2 with
  | some r =>
    obtain ⟨reset, flags⟩ := resetFlags_loop kept.listed
    rw [fdEvent_failed result]
    exact ⟨reset, fun unit => (flags unit).2.1, fun unit => (flags unit).2.2⟩
  | none =>
    have loaded := managerDispatchLoadQueue_read pulled kept.listed
    obtain ⟨followed, -, done⟩ := followSwap_loop loaded.listed
    rw [fdEvent_ok result]
    exact ⟨followed, fun unit => (done unit).inactive, fun unit => (done unit).old⟩

theorem addOne_settled (what : CString) (settled : Settled m) (whatProcSwaps : Option CString)
    (priority : Int) (noauto nofail handle : Bool) :
    Settled (swapAddOne m what whatProcSwaps priority noauto nofail handle false).1 := by
  have kept := swapAddOne_kept what settled.listed whatProcSwaps priority noauto nofail handle false
  have active (unit : CString) : ((present m what).swap unit).isActive = false := by
    simpa [settled.inactive unit] using (present_marked what settled.listed unit).active
  have just (unit : CString) : ((present m what).swap unit).justActivated = false := by
    simpa [settled.old unit] using (present_marked what settled.listed unit).just
  obtain ⟨r, failed⟩ | added :=
    swapAddOne_cases m what whatProcSwaps priority noauto nofail handle false
  next =>
    rw [failed]
    exact settled
  next =>
    refine ⟨kept.listed, fun unit => ?_, fun unit => ?_⟩
    all_goals
      rw [added]
      obtain ⟨-, swaps⟩ := chainProcSwaps_eq (present m what) (unitOf what)
        (whatProcSwaps.getD what)
      by_cases same : unit = unitOf what <;> cases whatProcSwaps <;>
        simp_all [fromEtcFstabLine, fromProcSwapsLine]

theorem unitFree_settled {unit : CString} (settled : Settled m) : Settled (unitFree m unit) := by
  have touched : Touches unit m (if unit ∈ m.loadQueue then m else swapUnsetProcSwaps m unit) := by
    split
    next => exact ⟨rfl, fun _ _ => rfl⟩
    next => exact swapUnsetProcSwaps_touches m unit
  have others (other : CString) (ne : other ≠ unit) : (unitFree m unit).swap other = m.swap other := by
    simp [unitFree, ne, touched.others other ne]
  have self : (unitFree m unit).swap unit = swapInit := by simp [unitFree]
  refine ⟨⟨?_, fun other missing => ?_⟩, fun other => ?_, fun other => ?_⟩
  next => simpa [unitFree, touched.units] using settled.listed.nodup.erase unit
  next =>
    by_cases ne : other = unit
    next => rw [ne, self]
    next =>
      rw [others other ne]
      refine settled.listed.unlisted other fun present => missing ?_
      simpa [unitFree, touched.units] using (mem_erase_of_ne ne).mpr present
  next =>
    by_cases ne : other = unit
    next => rw [ne, self]; rfl
    next => rw [others other ne, settled.inactive other]
  next =>
    by_cases ne : other = unit
    next => rw [ne, self]; rfl
    next => rw [others other ne, settled.old other]

theorem update_settled {unit : CString} (change : Swap -> Swap) (settled : Settled m)
    (present : unit ∈ m.unitsByType)
    (same : ∀ s, (change s).isActive = s.isActive ∧ (change s).justActivated = s.justActivated) :
    Settled (m.update unit change) := by
  refine ⟨settled.listed.update present change, fun other => ?_, fun other => ?_⟩
  all_goals
    by_cases self : other = unit
    next =>
      subst self
      simp [same, settled.inactive other, settled.old other]
    next => simp [self, settled.inactive other, settled.old other]

theorem take_settled (event : Event) (m next : SwapManager) (settled : Settled m)
    (taken : take event m = some next) : Settled next := by
  cases event with
  | addOne what whatProcSwaps priority noauto nofail handle =>
    cases taken
    exact addOne_settled what settled whatProcSwaps priority noauto nofail handle
  | setState unit state failure =>
    obtain ⟨present, taken⟩ := ite_none_right_eq_some.mp taken
    cases taken
    have failing := update_settled (fun s => { s with failure }) settled present
      fun s => ⟨rfl, rfl⟩
    exact update_settled _ failing present fun s => ⟨rfl, rfl⟩
  | unitFree unit =>
    obtain ⟨-, taken⟩ := ite_none_right_eq_some.mp taken
    cases taken
    exact unitFree_settled settled
  | load pulled =>
    cases taken
    have read := managerDispatchLoadQueue_read pulled settled.listed
    refine ⟨read.listed, fun unit => ?_, fun unit => ?_⟩
    next => simpa [settled.inactive unit] using (read.marked unit).active
    next => simpa [settled.old unit] using (read.marked unit).just
  | otherNames count =>
    cases taken
    exact ⟨⟨settled.listed.nodup, settled.listed.unlisted⟩, settled.inactive, settled.old⟩
  | fdEvent pulled lines =>
    cases taken
    exact fdEvent_settled pulled lines settled.listed

theorem Reachable.settled (reached : Reachable m) : Settled m := by
  refine Steps.Reached.invariant Settled ?_ (fun event m next settled _ taken => ?_) reached
  next => exact ⟨⟨nodup_nil, fun _ _ => rfl⟩, fun _ => rfl, fun _ => rfl⟩
  next => exact take_settled event m next settled taken

variable {lines : List SwapLine} {pulled : List PulledIn}

theorem fdEvent_marked (listed : m.Listed) (success : (swapFdEvent pulled m lines).2 = true)
    (unit : CString) :
    ∃ s, Marked ((denoted lines).count unit) (m.swap unit) s ∧
      Done s ((swapFdEvent pulled m lines).1.swap unit) := by
  cases result : (swapLoadProcSwaps m lines true).2 with
  | some r => simp [fdEvent_failed result] at success
  | none =>
    have read := swapLoadProcSwaps_read lines listed result
    have loaded := read.append (managerDispatchLoadQueue_read pulled read.listed)
    obtain ⟨-, -, done⟩ := followSwap_loop loaded.listed
    rw [fdEvent_ok result]
    rw [append_nil] at loaded
    exact ⟨_, loaded.marked unit, done unit⟩

theorem followedState_listed {count : Nat} {before s : Swap} (marked : Marked count before s)
    (named : 0 < count) :
    followedState s =
      if count = 1 ∧ before.fromProcSwaps = false ∧ (before.state = .dead ∨ before.state = .failed) then
        .active
      else
        before.state := by
  have active : s.isActive = true := by simp [marked.active, named]
  have just : s.justActivated = true ↔ count = 1 ∧ before.fromProcSwaps = false := by
    simp [marked.just, Nat.pos_iff_ne_zero.mp named]
  simp only [followedState, active, marked.state, just, and_assoc, Bool.true_eq_false, if_false]

theorem followedState_gone {before s : Swap} (marked : Marked 0 before s)
    (inactive : before.isActive = false) :
    followedState s ≠ .active ∧ (before.state ≠ .active -> followedState s = before.state) := by
  have gone : s.isActive = false := by simp [marked.active, inactive]
  by_cases active : before.state = .active
  next => cases failure : s.failure <;> simp [followedState, gone, marked.state, active, failure]
  next => simp [followedState, gone, marked.state, active]

section success

variable {pulled : List PulledIn} {lines : List SwapLine} {unit : CString}

theorem fdEvent_named (settled : Settled m) (success : (swapFdEvent pulled m lines).2 = true)
    (named : unit ∈ denoted lines) :
    ((swapFdEvent pulled m lines).1.swap unit).fromProcSwaps = true ∧
      ((swapFdEvent pulled m lines).1.swap unit).state =
        if (denoted lines).count unit = 1 ∧ (m.swap unit).fromProcSwaps = false ∧
            ((m.swap unit).state = .dead ∨ (m.swap unit).state = .failed) then
          .active
        else
          (m.swap unit).state := by
  obtain ⟨s, marked, done⟩ := fdEvent_marked settled.listed success unit
  have often := count_pos_iff.mpr named
  have active : s.isActive = true := by simp [marked.active, often]
  refine ⟨?_, ?_⟩
  next =>
    rw [done.known active, marked.known]
    simp [often]
  next => rw [done.state, followedState_listed marked often]

theorem fdEvent_unnamed (settled : Settled m) (success : (swapFdEvent pulled m lines).2 = true)
    (unnamed : unit ∉ denoted lines) :
    ((swapFdEvent pulled m lines).1.swap unit).state ≠ .active ∧
      ((m.swap unit).state ≠ .active ->
        ((swapFdEvent pulled m lines).1.swap unit).state = (m.swap unit).state) := by
  obtain ⟨s, marked, done⟩ := fdEvent_marked settled.listed success unit
  rw [count_eq_zero_of_not_mem unnamed] at marked
  rw [done.state]
  exact followedState_gone marked (settled.inactive unit)

end success

theorem fdEvent_failed_state (listed : m.Listed) (failed : (swapFdEvent pulled m lines).2 = false)
    (unit : CString) : ((swapFdEvent pulled m lines).1.swap unit).state = (m.swap unit).state := by
  cases result : (swapLoadProcSwaps m lines true).2 with
  | none => simp [fdEvent_ok result] at failed
  | some r =>
    have kept := swapLoadProcSwaps_kept lines true listed
    rw [fdEvent_failed result]
    exact ((resetFlags_loop kept.listed).2 unit).1.trans (kept.state unit)

theorem fdEvent_repeated (settled : Settled m) (success : (swapFdEvent pulled m lines).2 = true)
    (later : List PulledIn) (unit : CString) :
    ((swapFdEvent later (swapFdEvent pulled m lines).1 lines).1.swap unit).state =
      ((swapFdEvent pulled m lines).1.swap unit).state := by
  have between := fdEvent_settled pulled lines settled.listed
  cases again : (swapFdEvent later (swapFdEvent pulled m lines).1 lines).2 with
  | false => exact fdEvent_failed_state between.listed again unit
  | true =>
    by_cases named : unit ∈ denoted lines
    next =>
      have known := (fdEvent_named settled success named).1
      rw [(fdEvent_named between again named).2]
      simp [known]
    next =>
      have left := (fdEvent_unnamed settled success named).1
      exact (fdEvent_unnamed between again named).2 left

end events

theorem swaps_follow_proc_swaps {m : SwapManager} (reached : Reachable m) (pulled : List PulledIn)
    (lines : List SwapLine) (success : (swapFdEvent pulled m lines).2 = true) :
    Followed pulled m lines ↔
      ∀ unit ∈ m.unitsByType, (m.swap unit).Down -> (denoted lines).count unit ≤ 1 := by
  have settled := reached.settled
  constructor
  next =>
    intro followed unit present down
    by_cases named : unit ∈ denoted lines
    next =>
      have active := followed.activated unit present named down
      rw [(fdEvent_named settled success named).2] at active
      by_contra often
      have many : (denoted lines).count unit ≠ 1 := by omega
      rw [if_neg fun counted => many counted.1] at active
      simp [Swap.Down, active] at down
    next => simp [count_eq_zero_of_not_mem named]
  next =>
    intro once
    constructor
    case activated =>
      intro unit present named down
      have counted := once unit present down
      have often := count_pos_iff.mpr named
      have one : (denoted lines).count unit = 1 := by omega
      rw [(fdEvent_named settled success named).2, if_pos ⟨one, down.2, down.1⟩]
    case left =>
      intro unit _ unnamed _
      exact (fdEvent_unnamed settled success unnamed).1
    case repeated =>
      intro later unit _
      exact fdEvent_repeated settled success later unit

def partition : CString :=
  .ofString "/dev/sda1"

def configured : SwapManager :=
  (swapAddOne .empty partition none 0 false false false false).1

def swapped (backing : Backing) : List SwapLine :=
  [{ device := partition, priority := -1, backing }]

theorem configured_reached : Reachable configured :=
  .step (.addOne partition none 0 false false false) .empty _ .start trivial rfl

theorem swaps_follow_proc_swaps_file : Followed [] configured (swapped .file) := by
  refine (swaps_follow_proc_swaps configured_reached [] (swapped .file) (by decide)).mpr ?_
  intro unit present _
  have same : unit = unitOf partition := by
    have units : configured.unitsByType = [unitOf partition] := by decide
    simpa [units] using present
  rw [same]
  decide

def partitionTable : List SwapLine :=
  swapped (.device { devnode := some partition, links := [] })

theorem devnode_named_twice :
    Reachable configured ∧ (swapFdEvent [] configured partitionTable).2 = true ∧
      ¬Followed [] configured partitionTable := by
  refine ⟨configured_reached, by decide, fun followed => ?_⟩
  have named : unitOf partition ∈ denoted partitionTable := by decide
  have down : (configured.swap (unitOf partition)).Down := ⟨by decide, by decide⟩
  have active := followed.activated (unitOf partition) (by decide) named down
  have dead : ((swapFdEvent [] configured partitionTable).1.swap (unitOf partition)).state = .dead := by
    decide
  rw [dead] at active
  cases active

end Systemd.Swaps
