import Systemd.Engine.Growth

set_option autoImplicit false

namespace Systemd

open Loop List Option

variable {U : Type} [DecidableEq U]

section

variable [Fintype U]

-- The pairs of unit and type that have no job in the transaction.
def missing (m : Manager U) : Nat :=
  (Finset.univ.filter fun pair : U × JobType =>
    ∀ j ∈ m.chain pair.1, (m.job j).type ≠ pair.2).card

variable {m' m : Manager U}

omit [DecidableEq U] in
theorem missing_mono {E : Units U} {asked : JobType -> U -> Prop} (wf : WellFormed m)
    (growth : Growth E asked m m') : missing m' ≤ missing m := by
  apply Finset.card_le_card
  intro pair absent
  simp only [Finset.mem_filter, Finset.mem_univ, true_and] at absent ⊢
  intro j mem
  rw [← (growth.kept j (wf.chainFresh _ j mem)).type]
  exact absent j (growth.mem_chain mem)

omit [DecidableEq U] in
theorem missing_lt {E : Units U} {type : JobType} {u : U} {ret : JobId} (wf : WellFormed m)
    (added : Added E m type u m' ret) : missing m' < missing m := by
  apply Finset.card_lt_card
  refine ⟨fun pair absent => ?_, fun all => ?_⟩
  · simp only [Finset.mem_filter, Finset.mem_univ, true_and] at absent ⊢
    intro j mem
    rw [← (added.growth.kept j (wf.chainFresh _ j mem)).type]
    exact absent j (added.growth.mem_chain mem)
  · have here := @all (u, type) (by simpa using added.absent)
    simp only [Finset.mem_filter, Finset.mem_univ, true_and] at here
    exact here ret (by simp [added.chain]) added.typed

variable (E : Units U)

theorem addJobAndDependencies_congr (add add' : AddFunction U) (spec : AddSpec E add) (m : Manager U)
    (call : AddCall U) (wf : WellFormed m) (valid : CallFrom E m call) (same : ∀ m' call', WellFormed m'
      -> CallFrom E m' call' -> missing m' < missing m -> add m' call' = add' m' call') :
    addJobAndDependencies E add m call = addJobAndDependencies E add' m call := by
  cases refused : refusal E call.type call.unit with
  | some e => simp [addJobAndDependencies, refused]
  | none =>
    cases one : transactionAddOneJob m call.type call.unit call.override with
    | mk m1 rest =>
      obtain ⟨ret, isNew⟩ := rest
      rw [addJobAndDependencies_eq add m1 ret isNew refused one,
        addJobAndDependencies_eq add' m1 ret isNew refused one]
      by_cases recurse : isNew = true ∧ call.ignoreRequirements = false
      · rcases transactionAddOneJob_spec E wf m1 ret isNew one with
          ⟨old, _⟩ | ⟨_, added⟩
        · simp [old] at recurse
        · obtain ⟨wf2, growth2, placed⟩ := enterJob_spec added.wf
            (added.growth.callFrom wf valid) (by simp [added.chain]) added.typed (Brought E call)
          have fewer := (missing_mono added.wf growth2).trans_lt (missing_lt wf added)
          rw [if_pos recurse, if_pos recurse, forEach_congr (pullIn add) (pullIn add')
            (fun m' => WellFormed m' ∧ Placed m' call ret ∧ missing m' < missing m)]
          · rintro item mem m' ⟨wf', placed', fewer'⟩
            simp only [pullIn, same m' item.2 wf' (pullCalls_valid wf' placed' mem) fewer']
          · rintro item mem m' ⟨wf', placed', fewer'⟩
            have valid' := pullCalls_valid wf' placed' mem
            have growth' := spec.growth m' item.2 wf' valid'
            rw [pullIn_state]
            exact ⟨spec.wf m' item.2 wf' valid', placed'.grow wf' growth',
              (missing_mono wf' growth').trans_lt fewer'⟩
          · exact ⟨wf2, placed, fewer⟩
      · rw [if_neg recurse, if_neg recurse]

theorem addWithDepth_sufficient (depth other : Nat) (m : Manager U) (call : AddCall U)
    (wf : WellFormed m) (valid : CallFrom E m call) (enough : missing m ≤ depth)
    (otherEnough : missing m ≤ other) : addWithDepth E depth m call = addWithDepth E other m call := by
  induction depth generalizing other m call with
  | zero =>
    have none : ∀ add : AddFunction U, addWithDepth E 0 m call = addJobAndDependencies E add m call :=
      fun add => addJobAndDependencies_congr E _ add (noMemory_spec E) m call wf valid
        fun m' _ _ _ fewer => by omega
    cases other with
    | zero => rfl
    | succ other => exact none _
  | succ depth ih =>
    cases other with
    | zero =>
      exact addJobAndDependencies_congr E _ _ (addWithDepth_spec E depth) m call wf valid
        fun m' _ _ _ fewer => by omega
    | succ other =>
      refine addJobAndDependencies_congr E _ _ (addWithDepth_spec E depth) m call wf valid ?_
      intro m' call' wf' valid' fewer
      exact ih other m' call' wf' valid' (by omega) (by omega)

theorem transactionAddJobAndDependencies_depth (m : Manager U) (call : AddCall U) (wf : WellFormed m)
    (valid : CallFrom E m call) (depth : Nat) (enough : Fintype.card (U × JobType) ≤ depth) :
    addWithDepth E depth m call = transactionAddJobAndDependencies E m call := by
  have bound : missing m ≤ Fintype.card (U × JobType) := Finset.card_le_univ _
  exact addWithDepth_sufficient E depth _ m call wf valid (bound.trans enough) bound

end

def Required (E : Units U) (v u : U) : Prop :=
  u ∈ E.dependencies .requires v ∨ u ∈ E.dependencies .bindTo v

variable (E : Units U)

omit [DecidableEq U] in
theorem refusal_errno (u : U) (e : RequestError U) (refused : refusal E .start u = some e) :
    e.errno ≠ .ebadr := by
  unfold refusal at refused
  simp only [unitJobIsApplicable] at refused
  split at refused
  · obtain rfl := some.inj refused
    simp [RequestError.errno]
  split at refused
  · obtain rfl := some.inj refused
    simp [RequestError.errno]
  split at refused
  · obtain rfl := some.inj refused
    simp [RequestError.errno]
  · cases refused

/-- The jobs without which the call for a job fails. -/
inductive Strict (E : Units U) : JobType -> U -> JobType -> U -> Prop where
  | pull (type : JobType) (u : U) (override : Bool) (pull : Pull) (dep : U) :
      pull ∈ pulls type override -> pull.ignored = false -> dep ∈ pullUnits E u pull.set ->
      Strict E type u pull.type dep

/-- A job whose dependencies lead, by those without which it fails, to one that is refused. -/
inductive Unmeetable (E : Units U) : JobType -> U -> Prop where
  | refused (type : JobType) (u : U) (e : RequestError U) : refusal E type u = some e ->
      e.errno ≠ .ebadr -> Unmeetable E type u
  | strict (type type' : JobType) (u dep : U) : Strict E type u type' dep -> Unmeetable E type' dep ->
      Unmeetable E type u

def Linked (E : Units U) (m : Manager U) (j : JobId) : Prop :=
  ∀ type u, Strict E (m.job j).type (m.job j).unit type u -> refusal E type u = none ->
    ∃ k ∈ m.chain u, (m.job k).type = type ∧ Needs m j k

def NewLinked (E : Units U) (m m' : Manager U) : Prop :=
  ∀ u, ∀ j ∈ m'.chain u, j ∉ m.chain u -> ¬ Unmeetable E (m'.job j).type u ->
    Linked E m' j

variable {asked : JobType -> U -> Prop} {m m' : Manager U}

section

omit [DecidableEq U]

theorem Linked.grow {E : Units U} (wf : WellFormed m) (growth : Growth E asked m m') {j : JobId}
    (inside : m.InTransaction j) (linked : Linked E m j) : Linked E m' j := by
  obtain ⟨v, inChain⟩ := inside
  intro type u strict accepted
  have same := growth.kept j (wf.chainFresh v j inChain)
  rw [same.unit, same.type] at strict
  obtain ⟨k, mem, typed, link, inLinks, rest⟩ := linked type u strict accepted
  refine ⟨k, growth.mem_chain mem, ?_, link, growth.mem_links inLinks, rest⟩
  rw [(growth.kept k (wf.chainFresh u k mem)).type, typed]

theorem NewLinked.refl (m : Manager U) : NewLinked E m m :=
  fun _ _ mem outside => absurd mem outside

theorem NewLinked.trans {E : Units U} {m'' : Manager U} (wf : WellFormed m')
    (growth : Growth E asked m' m'') (first : NewLinked E m m') (second : NewLinked E m' m'') :
    NewLinked E m m'' := by
  intro u j mem outside meetable
  by_cases early : j ∈ m'.chain u
  · rw [(growth.kept j (wf.chainFresh u j early)).type] at meetable
    exact (first u j early outside meetable).grow wf growth ⟨u, early⟩
  · exact second u j mem early meetable

end

-- A call fails only where the job is refused or cannot be met, and what it leaves behind is linked to
-- what it strictly needs unless it cannot be met either.
def MeetsAt (E : Units U) (add : AddFunction U) (m : Manager U) : Prop :=
  ∀ call, WellFormed m -> CallFrom E m call -> call.ignoreRequirements = false ->
    NewLinked E m (add m call).1 ∧ ∀ e, (add m call).2 = .error e ->
      refusal E call.type call.unit = some e ∨ e.errno ≠ .ebadr ∧ Unmeetable E call.type call.unit

omit [DecidableEq U] in
theorem pullCalls_strict (call : AddCall U) (ret : JobId) {type : JobType} {u : U}
    (needed : Strict E call.type call.unit type u) :
    ∃ item ∈ pullCalls E call ret, item.1.ignored = false ∧ item.2.type = type ∧ item.2.unit = u ∧
      item.2.requester = some ret ∧ item.2.matters = true := by
  obtain ⟨override, pull, _, inPulls, strict, inUnits⟩ := needed
  have strictly : ∃ pull' ∈ pulls call.type call.override, pull'.ignored = false ∧
      pull'.type = pull.type ∧ pull'.set = pull.set ∧ pull'.matters = true := by
    clear inUnits
    revert inPulls strict
    cases call.type <;> simp only [pulls, mem_cons, not_mem_nil, or_false] <;>
      rintro (rfl | rfl | rfl | rfl | rfl | rfl | rfl | rfl | rfl) strict <;> simp_all
  obtain ⟨pull', inPulls', strict', type, set, matters⟩ := strictly
  refine ⟨_, mem_flatMap.mpr ⟨pull', inPulls', mem_map.mpr ⟨u, set ▸ inUnits, rfl⟩⟩, ?_⟩
  exact ⟨strict', type, rfl, rfl, matters⟩

section

variable [Fintype U] {E : Units U} {add : AddFunction U}

omit [DecidableEq U] in
theorem pullIn_linked (spec : AddSpec E add) (call : AddCall U) (ret : JobId) (bound : Nat)
    (meets : ∀ m, missing m < bound -> MeetsAt E add m)
    (items : List (Pull × AddCall U)) (known : ∀ item ∈ items, item ∈ pullCalls E call ret)
    (m : Manager U) (wf : WellFormed m) (placed : Placed m call ret) (fewer : missing m < bound) :
    WellFormed (forEach (pullIn add) m items).1 ∧
      (∃ asked, Growth E asked m (forEach (pullIn add) m items).1) ∧
      NewLinked E m (forEach (pullIn add) m items).1 ∧
      ((forEach (pullIn add) m items).2 = .ok () -> ∀ item ∈ items, item.1.ignored = false ->
        refusal E item.2.type item.2.unit = none ->
          ∃ job, Placed (forEach (pullIn add) m items).1 item.2 job) ∧
      ∀ e, (forEach (pullIn add) m items).2 = .error e ->
        e.errno ≠ .ebadr ∧ Unmeetable E call.type call.unit := by
  induction items generalizing m with
  | nil => exact ⟨wf, ⟨fun _ _ => True, .refl m⟩, .refl E m, by simp, by simp [forEach]⟩
  | cons item rest ih =>
    have inCalls := known item (by simp)
    have valid := pullCalls_valid wf placed inCalls
    obtain ⟨inPulls, inUnits, sameType, _, _, _, requirements⟩ := pullCalls_mem inCalls
    have wf1 := spec.wf m item.2 wf valid
    have growth1 := spec.growth m item.2 wf valid
    have placed1 := spec.placed m item.2 wf valid
    obtain ⟨new1, fails⟩ := meets m fewer item.2 wf valid requirements
    -- What the rest of the list does from the state the call for this item leaves.
    have onward (outcome : item.1.ignored = false -> refusal E item.2.type item.2.unit = none ->
        ∃ job, Placed (add m item.2).1 item.2 job) :
        WellFormed (forEach (pullIn add) (add m item.2).1 rest).1 ∧
          (∃ asked, Growth E asked m (forEach (pullIn add) (add m item.2).1 rest).1) ∧
          NewLinked E m (forEach (pullIn add) (add m item.2).1 rest).1 ∧
          ((forEach (pullIn add) (add m item.2).1 rest).2 = .ok () -> ∀ x ∈ item :: rest,
            x.1.ignored = false -> refusal E x.2.type x.2.unit = none ->
              ∃ job, Placed (forEach (pullIn add) (add m item.2).1 rest).1 x.2 job) ∧
          ∀ e, (forEach (pullIn add) (add m item.2).1 rest).2 = .error e ->
            e.errno ≠ .ebadr ∧ Unmeetable E call.type call.unit := by
      obtain ⟨wf', ⟨asked, growth'⟩, new', pulled, failed⟩ :=
        ih (fun x mem => known x (mem_cons_of_mem _ mem)) (add m item.2).1 wf1
          (placed.grow wf growth1) ((missing_mono wf growth1).trans_lt fewer)
      have whole := (growth1.mono fun _ _ _ => trivial).trans wf1
        (growth'.mono fun _ _ _ => trivial : Growth E (fun _ _ => True) _ _)
      refine ⟨wf', ⟨_, whole⟩, new1.trans wf1 growth' new', fun ok x mem strict accepted => ?_, failed⟩
      rcases mem_cons.mp mem with rfl | later
      · obtain ⟨job, here⟩ := outcome strict accepted
        exact ⟨job, here.grow wf1 growth'⟩
      · exact pulled ok x later strict accepted
    rw [forEach]
    cases called : add m item.2 with
    | mk m1 outcome =>
      rw [called] at wf1 growth1 placed1 new1 fails onward
      cases outcome with
      | ok job =>
        simp only [pullIn, called]
        exact onward fun _ _ => ⟨job, placed1 job rfl⟩
      | error e =>
        by_cases passed : item.1.ignored = true ∨ e.errno = .ebadr
        · simp only [pullIn, called, if_pos passed]
          refine onward fun strict accepted => ?_
          rcases fails e rfl with refused | ⟨hard, _⟩
          · rw [accepted] at refused
            cases refused
          · rcases passed with ignored | soft
            · simp [strict] at ignored
            · exact absurd soft hard
        · simp only [pullIn, called, if_neg passed]
          refine ⟨wf1, ⟨_, growth1⟩, new1, by simp, fun e' same => ?_⟩
          obtain rfl := Except.error.inj same
          obtain ⟨strict, hard⟩ := not_or.mp passed
          refine ⟨hard, .strict _ _ _ _ (.pull _ _ _ item.1 _ inPulls (by simpa using strict) inUnits) ?_⟩
          rw [← sameType]
          rcases fails e rfl with refused | ⟨_, unmeetable⟩
          · exact .refused _ _ e refused hard
          · exact unmeetable

theorem addJobAndDependencies_meets (spec : AddSpec E add) (m : Manager U)
    (meets : ∀ m', missing m' < missing m -> MeetsAt E add m') :
    MeetsAt E (addJobAndDependencies E add) m := by
  intro call wf valid requirements
  cases refused : refusal E call.type call.unit with
  | some e =>
    have same : addJobAndDependencies E add m call = (m, .error e) := by simp [addJobAndDependencies, refused]
    rw [same]
    exact ⟨.refl E m, fun e' failed => .inl (by rw [Except.error.inj failed])⟩
  | none =>
    cases one : transactionAddOneJob m call.type call.unit call.override with
    | mk m1 rest =>
      obtain ⟨job, isNew⟩ := rest
      rw [addJobAndDependencies_eq add m1 job isNew refused one]
      rcases transactionAddOneJob_spec E wf m1 job isNew one with
        ⟨rfl, rfl, _, _⟩ | ⟨rfl, added⟩
      · rw [if_neg (by simp)]
        exact ⟨fun u j mem outside => absurd mem outside, fun e failed => by cases failed⟩
      · obtain ⟨wf2, growth2, placed⟩ := enterJob_spec added.wf
          (added.growth.callFrom wf valid) (by simp [added.chain]) added.typed (Brought E call)
        obtain ⟨wf3, ⟨_, growth3⟩, new, pulled, failed⟩ := pullIn_linked spec call job (missing m) meets
          _ (fun _ h => h) _ wf2 placed ((missing_mono added.wf growth2).trans_lt (missing_lt wf added))
        rw [if_pos ⟨rfl, requirements⟩]
        revert wf3 growth3 new pulled failed
        cases loop : forEach (pullIn add) (enterJob m1 call job) (pullCalls E call job) with
        | mk m3 outcome =>
          intro wf3 growth3 new pulled failed
          have placed3 := placed.grow wf2 growth3
          have linked : NewLinked E m m3 := by
            intro u j mem outside meetable
            by_cases early : j ∈ (enterJob m1 call job).chain u
            · -- The one job the call itself adds.
              obtain ⟨rfl, rfl⟩ : u = call.unit ∧ j = job := by
                change j ∈ m1.chain u at early
                by_cases same : u = call.unit
                · subst same
                  rw [added.chain] at early
                  exact ⟨rfl, (mem_cons.mp early).resolve_right outside⟩
                · rw [added.others u same] at early
                  exact absurd early outside
              intro type x strict accepted
              rw [placed3.type] at meetable strict
              rw [wf3.chainUnit _ _ placed3.mem] at strict
              cases outcome with
              | error e => exact absurd (failed e rfl).2 meetable
              | ok =>
                obtain ⟨item, inCalls, strictly, rfl, rfl, requester, matters⟩ := pullCalls_strict E call j strict
                obtain ⟨k, here⟩ := pulled rfl item inCalls strictly accepted
                exact ⟨k, here.mem, here.type, _, here.link, matters, requester, rfl⟩
            · exact new u j mem early meetable
          cases outcome with
          | error e => exact ⟨linked, fun e' same => .inr (Except.error.inj same ▸ failed e rfl)⟩
          | ok => exact ⟨linked, fun e' same => by cases same⟩

theorem addWithDepth_meets (depth : Nat) (m : Manager U) (enough : missing m ≤ depth) :
    MeetsAt E (addWithDepth E depth) m := by
  induction depth generalizing m with
  | zero => exact addJobAndDependencies_meets (noMemory_spec E) m fun m' fewer => by omega
  | succ depth ih =>
    exact addJobAndDependencies_meets (addWithDepth_spec E depth) m fun m' fewer => ih m' (by omega)

theorem transactionAddJobAndDependencies_meets (E : Units U) (m : Manager U) :
    MeetsAt E (transactionAddJobAndDependencies E) m :=
  addWithDepth_meets _ m (Finset.card_le_univ _)

end

end Systemd
