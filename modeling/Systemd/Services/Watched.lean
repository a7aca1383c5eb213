import Systemd.Services.Abort

set_option autoImplicit false

namespace Systemd.Services

open Serialization (parsePid)

-- What service_done does with the processes.
def serviceDone (s : Service) : Service := s.unwatchMainPid.unwatchControlPid

inductive Happening where
  | event (ans : Answers) (event : Event)
  | free

-- The table of the manager outlives the unit.
def happens (cfg : Config) : Happening -> Service -> Option Service
  | .event ans event, s => (dispatch cfg ans event ⟨s, []⟩).map Run.service
  | .free, s => some { watched := (serviceDone s).watched }

def Acceptable (cfg : Config) (pid : Int32) : Prop := 1 < pid ∧ pid ≠ cfg.managerPid

structure Forks (cfg : Config) (ans : Answers) : Prop where
  acceptable : ∀ id pid positive, ans.spawn id = .forked pid positive -> Acceptable cfg pid
  distinct : ∀ id id' pid positive positive', ans.spawn id = .forked pid positive ->
    ans.spawn id' = .forked pid positive' -> id = id'

structure Orderly (cfg : Config) (ans : Answers) (s : Service) (event : Event) : Prop where
  watch : ans.watchPid = true
  forks : Forks cfg ans
  forked : ∀ id pid positive, ans.spawn id = .forked pid positive ->
    pid ≠ s.mainPid ∧ pid ≠ s.controlPid ∧ ans.pidFile ≠ some pid ∧ pid ≠ ans.cgroupPid
  announced : ∀ sender tags text pid, event = .notify sender tags ->
    tagValue tags "MAINPID=" = some text -> parsePid text = some pid ->
    acceptsMainPid s.state = true -> Acceptable cfg pid -> pid = s.mainPid
  owner : ∀ pid, event = .busPid pid -> s.mainPid ≤ 0 -> acceptsMainPid s.state = true ->
    ¬ Acceptable cfg pid
  exited : ∀ code status pid, event = .sigchld s.mainPid code status -> 0 < s.mainPid ->
    ans.pidFile = some pid -> pid ≠ s.mainPid ∧ pid ≠ s.controlPid

def OrderlyStep (cfg : Config) : Happening -> Service -> Prop
  | .event ans event, s => Orderly cfg ans s event
  | .free, _ => True

def WatchesExactly (s : Service) : Prop :=
  ∀ pid, pid ∈ s.watched ↔ 0 < pid ∧ (pid = s.mainPid ∨ pid = s.controlPid)

structure Watched (s : Service) : Prop where
  exactly : WatchesExactly s
  apart : s.mainPid = s.controlPid -> s.mainPid = 0
  known : s.mainPidKnown = false -> s.mainPid = 0

def Fresh (ans : Answers) (pid : Int32) : Prop :=
  ∀ id forked positive, id ≠ .start -> ans.spawn id = .forked forked positive -> forked ≠ pid

structure Supervised (ans : Answers) (run : Run) : Prop where
  watched : Watched run.service
  fresh : Fresh ans run.service.mainPid

structure Settled (ans : Answers) (run : Run) : Prop where
  supervised : Supervised ans run
  placed : Placed run.service

section

variable {cfg : Config} {ans : Answers}

theorem fresh_zero : Fresh ans 0 := by
  rintro id forked positive - - rfl
  exact Int32.lt_irrefl positive

variable {s : Service} {pid : Int32} {run : Run} {event : Event}

section

variable (watched : Watched s)
include watched

theorem Watched.unwatchControlPid : Watched s.unwatchControlPid where
  exactly := by
    intro pid
    have exactly := watched.exactly pid
    have apart := watched.apart
    simp only [Service.unwatchControlPid, Service.unwatchPid, Finset.mem_erase, exactly]
    grind
  apart := fun same => same
  known := watched.known

theorem Watched.unwatchMainPid : Watched s.unwatchMainPid where
  exactly := by
    intro pid
    have exactly := watched.exactly pid
    have apart := watched.apart
    simp only [Service.unwatchMainPid, Service.unwatchPid, Finset.mem_erase, exactly]
    grind
  apart := fun _ => rfl
  known := fun _ => rfl

variable (state : ServiceState)

theorem Watched.keepMain : Watched (s.keepMain state) := by
  unfold Service.keepMain
  split
  · exact watched
  · exact { watched.unwatchMainPid with }

theorem Watched.keepControl : Watched (s.keepControl state) := by
  unfold Service.keepControl
  split
  · exact watched
  · exact { watched.unwatchControlPid with }

theorem Watched.setState : Watched (s.setState state) := by
  have timer : Watched (Service.keepTimer state { s with state := state }) := by
    unfold Service.keepTimer
    split
    · exact { watched with }
    · exact { watched with }
  exact { (timer.keepMain state).keepControl state with }

theorem Watched.watchMain (idle : s.mainPid = 0) (positive : 0 < pid) (other : pid ≠ s.controlPid) :
    Watched { s.watchPid pid with mainPid := pid, mainPidKnown := true } where
  exactly := by
    intro pid'
    have exactly := watched.exactly pid'
    simp only [Service.watchPid, Finset.mem_insert, exactly, idle]
    grind
  apart := fun same => absurd same other
  known := fun unknown => by cases unknown

theorem Watched.watchControl (idle : s.controlPid = 0) (positive : 0 < pid) (other : pid ≠ s.mainPid) :
    Watched { s.watchPid pid with controlPid := pid } where
  exactly := by
    intro pid'
    have exactly := watched.exactly pid'
    simp only [Service.watchPid, Finset.mem_insert, exactly, idle]
    grind
  apart := fun same => absurd same.symm other
  known := watched.known

end

theorem settled_setState (supervised : Supervised ans run) (state : ServiceState) :
    Settled ans (serviceSetState state run) where
  supervised :=
    { watched := supervised.watched.setState state
      fresh := by
        simp only [serviceSetState, setState_eq]
        split
        · exact supervised.fresh
        · exact fresh_zero }
  placed := placed_setState state run.service

theorem passes_watched : Passes cfg ans (Supervised ans) (Settled ans) where
  flags := fun _ _ _ _ held => ⟨{ held.watched with }, held.fresh⟩
  state := fun _ state _ held => settled_setState held state
  allow := fun _ reached =>
    ⟨⟨{ reached.supervised.watched with }, reached.supervised.fresh⟩,
      reached.placed.main, reached.placed.control⟩
  absent := fun _ held => ⟨{ held.watched.unwatchControlPid with }, held.fresh⟩
  prepared := fun _ _ _ _ _ _ held => ⟨{ held.watched.unwatchControlPid with }, held.fresh⟩
  refused := fun _ _ _ _ held => ⟨{ held.watched with }, held.fresh⟩
  forked := fun _ id _ pid positive _ other answer idle held =>
    ⟨{ held.watched.watchControl idle positive (held.fresh id pid positive other answer) with },
      held.fresh⟩

theorem setMainPid_acceptable (acceptable : Acceptable cfg pid) (s : Service) :
    serviceSetMainPid cfg ans pid s = some { s with
      mainPid := pid
      mainPidKnown := true
      mainPidAlien := ans.alien pid
      mainExecStatus := execStatusStart ans.clock pid } := by
  unfold serviceSetMainPid
  rw [if_neg]
  rintro (low | own)
  · exact Int32.not_le.mpr acceptable.1 low
  · exact acceptable.2 own

theorem setMainPid_unacceptable (refused : ¬ Acceptable cfg pid) (s : Service) :
    serviceSetMainPid cfg ans pid s = none := by
  unfold serviceSetMainPid
  rw [if_pos]
  by_contra accepted
  simp only [not_or, Int32.not_le] at accepted
  exact refused accepted

def Leads (ans : Answers) (result : Option Run) : Prop :=
  ∀ run, result = some run -> Settled ans run

theorem leads_some (settled : Settled ans run) : Leads ans (some run) := by
  rintro _ ⟨⟩
  exact settled

theorem leads_none : Leads ans none := by
  rintro _ ⟨⟩

theorem Acceptable.positive (acceptable : Acceptable cfg pid) : 0 < pid :=
  Int32.lt_trans (by decide) acceptable.1

theorem supervised_forkedMain (forks : Forks cfg ans) (watched : Watched s)
    (idle : s.mainPid = 0) {positive : 0 < pid} (answer : ans.spawn .start = .forked pid positive)
    (other : pid ≠ s.controlPid) (timer : Bool) (outputs : List Output) :
    Supervised ans ((Run.mk { s.watchPid pid with timer := timer } outputs).update fun s =>
      (serviceSetMainPid cfg ans pid s).getD s) where
  watched := by
    have main := watched.watchMain idle positive other
    simp only [Run.update, setMainPid_acceptable (forks.acceptable .start pid positive answer),
      Option.getD_some]
    exact { main with }
  fresh := by
    simp only [Run.update, setMainPid_acceptable (forks.acceptable .start pid positive answer),
      Option.getD_some]
    rintro id forked positive' different answer' rfl
    exact different (forks.distinct id .start forked positive' positive answer' answer)

theorem leads_enterStart (forks : Forks cfg ans) (supervised : Supervised ans run)
    (unborn : run.service.mainPid = 0) (idle : run.service.controlPid = 0) :
    Leads ans (serviceEnterStart cfg ans run) := by
  unfold serviceEnterStart
  split
  · exact leads_none
  · rename_i command rest found
    split
    · exact leads_none
    · split
      · have prepared : Watched { run.service.unwatchControlPid with
            controlCommandId := some .start
            controlCommand := command :: rest
            mainCommand := [] } :=
          { supervised.watched.unwatchControlPid with }
        unfold serviceSpawn
        cases answer : ans.spawn .start with
        | noFds | failed =>
          exact leads_some (passes_watched.enterSignal (by simp) false
            ⟨{ prepared with }, supervised.fresh⟩)
        | forked pid positive =>
          have control := prepared.watchControl rfl positive
            (fun same => Int32.lt_irrefl (unborn ▸ same ▸ positive))
          exact leads_some (settled_setState (by exact ⟨{ control with }, supervised.fresh⟩) .start)
      · have prepared : Watched { run.service.unwatchMainPid with
            controlCommandId := none
            controlCommand := []
            mainCommand := command :: rest } :=
          { supervised.watched.unwatchMainPid with }
        unfold serviceSpawn
        cases answer : ans.spawn .start with
        | noFds =>
          have refused : ∀ timer outputs, Supervised ans (Run.mk { run.service.unwatchMainPid with
              controlCommandId := none
              controlCommand := []
              mainCommand := command :: rest
              timer := timer } outputs) := fun _ _ => ⟨{ prepared with }, fresh_zero⟩
          dsimp only
          split
          · exact leads_some (passes_watched.enterSignal (by simp) false (refused _ _))
          · exact leads_some (passes_watched.enterSignal (by simp) false (refused _ _))
        | failed =>
          exact leads_some (passes_watched.enterSignal (by simp) false
            ⟨{ prepared with }, fresh_zero⟩)
        | forked pid positive =>
          have main := supervised_forkedMain forks prepared rfl answer
            (fun same => Int32.lt_irrefl (idle ▸ same ▸ positive))
            ((decide (cfg.type = .dbus) || decide (cfg.type = .notify)) &&
              decide (0 < cfg.timeoutUsec)) (run.outputs ++ [.spawned .start command])
          dsimp only
          split
          · exact leads_some (passes_watched.enterStartPost main)
          · exact leads_some (settled_setState main .start)

theorem passes_main (Known : ServiceState -> Int32 -> List ExecCommand -> Prop) : Passes cfg ans
    (fun run => Supervised ans run ∧
      Known run.service.state run.service.mainPid run.service.mainCommand) (Settled ans) :=
  have passes : Passes cfg ans (Supervised ans) (Settled ans) := passes_watched
  { flags := fun run failure reloadFailure timer held =>
      ⟨passes.flags run failure reloadFailure timer held.1, held.2⟩
    state := fun _ state _ held => settled_setState held.1 state
    allow := passes.allow
    absent := fun run held => ⟨passes.absent run held.1, held.2⟩
    prepared := fun run id command rest other found held =>
      ⟨passes.prepared run id command rest other found held.1, held.2⟩
    refused := fun run id command timer held =>
      ⟨passes.refused run id command timer held.1, held.2⟩
    forked := fun run id command pid positive timer other answer idle held =>
      ⟨passes.forked run id command pid positive timer other answer idle held.1, held.2⟩ }

theorem leads_start (forks : Forks cfg ans) (settled : Settled ans run) :
    Leads ans (serviceStart cfg ans run) := by
  have asleep : ∀ ratelimit, run.service.state.keepsMain = false ->
      Leads ans (serviceEnterStartPre cfg ans (run.update fun s => { s with
        ratelimit := ratelimit
        failure := false
        mainPidKnown := false
        mainPidAlien := false
        forbidRestart := false })) := by
    intro ratelimit gone
    have unborn := (settled.placed.main gone).1
    have supervised := settled.supervised
    have passes : Passes cfg ans _ (Settled ans) := passes_main fun _ pid _ => pid = 0
    refine passes.enterControl (Leads ans) (by simp) (by simp)
      (fun _ reached => leads_some reached)
      (fun _ held idle => leads_enterStart forks held.1 held.2 idle)
      (fun _ held => leads_some (passes.enterDead false held)) ⟨⟨?_, supervised.fresh⟩, unborn⟩
    exact { supervised.watched with known := fun _ => unborn }
  unfold serviceStart
  cases here : run.service.state with
  | stop | stopSigterm | stopSigkill | stopPost | finalSigterm | finalSigkill | startPre | start
  | startPost => exact leads_some settled
  | dead | failed | autoRestart =>
    dsimp only
    split
    · exact leads_some settled
    · exact asleep _ (by rw [here]; rfl)
  | running | exited | reload => exact leads_none

theorem leads_stop (settled : Settled ans run) : Leads ans (serviceStop cfg ans run) := by
  have supervised : Supervised ans (run.update fun s => { s with forbidRestart := true }) :=
    ⟨{ settled.supervised.watched with }, settled.supervised.fresh⟩
  have settled' : Settled ans (run.update fun s => { s with forbidRestart := true }) :=
    ⟨supervised, settled.placed.main, settled.placed.control⟩
  unfold serviceStop
  dsimp only
  cases (run.update fun s => { s with forbidRestart := true }).service.state with
  | stop | stopSigterm | stopSigkill | stopPost | finalSigterm | finalSigkill =>
    exact leads_some settled'
  | autoRestart => exact leads_some (settled_setState supervised .dead)
  | startPre | start | startPost | reload =>
    exact leads_some (passes_watched.enterSignal (by simp) true supervised)
  | running | exited => exact leads_some (passes_watched.enterStop true supervised)
  | dead | failed => exact leads_none

theorem leads_reload (settled : Settled ans run) : Leads ans (serviceReload cfg ans run) := by
  unfold serviceReload
  split
  · exact leads_some (passes_watched.enterReload settled.supervised)
  · exact leads_some (passes_watched.enterReload settled.supervised)
  · exact leads_none

theorem leads_timer (supervised : Supervised ans run) : Leads ans (serviceTimerEvent cfg ans run) := by
  cases timed : run.service.state.timed with
  | true =>
    have passes : Passes cfg ans (Supervised ans) (Settled ans) := passes_watched
    obtain ⟨run', handled, settled⟩ :=
      passes.timerEvent (fun _ settled => settled.supervised) supervised timed
    rw [handled]
    exact leads_some settled
  | false =>
    unfold serviceTimerEvent
    cases here : run.service.state <;> simp [here, ServiceState.timed] at timed ⊢ <;> exact leads_none

theorem watched_adopt (watch : ans.watchPid = true) {t : Service} (watched : Watched s)
    (idle : s.mainPid = 0) (other : Acceptable cfg pid -> pid ≠ s.controlPid)
    (adopted : adoptMainPid cfg ans pid s = some t) :
    Watched t ∧ t.mainPid = pid ∧ t.controlPid = s.controlPid ∧ t.state = s.state := by
  by_cases acceptable : Acceptable cfg pid
  · rw [adoptMainPid, setMainPid_acceptable acceptable, Option.map_some, if_pos watch] at adopted
    cases adopted
    exact ⟨{ watched.watchMain idle acceptable.positive (other acceptable) with }, rfl, rfl, rfl⟩
  · rw [adoptMainPid, setMainPid_unacceptable acceptable] at adopted
    cases adopted

theorem Watched.forgetMainPid (watched : Watched s) :
    Watched s.forgetMainPid ∧ s.forgetMainPid.mainPid = 0 := by
  unfold Service.forgetMainPid
  split
  · exact ⟨{ watched.unwatchMainPid with known := fun _ => rfl }, rfl⟩
  · rename_i unknown
    exact ⟨watched, watched.known (by simpa using unknown)⟩

theorem controlPid_forgetMainPid (s : Service) :
    s.forgetMainPid.controlPid = s.controlPid ∧ s.forgetMainPid.state = s.state := by
  unfold Service.forgetMainPid
  split
  · exact ⟨rfl, rfl⟩
  · exact ⟨rfl, rfl⟩

structure Loaded (ans : Answers) (s t : Service) : Prop where
  watched : Watched t
  main : t.mainPid = s.mainPid ∨ t.mainPid = 0 ∨ ans.pidFile = some t.mainPid
  control : t.controlPid = s.controlPid
  state : t.state = s.state

section

variable (watch : ans.watchPid = true)
include watch

theorem loaded_adopt (found : ans.pidFile = some pid) (other : Acceptable cfg pid -> pid ≠ s.controlPid)
    (watched : Watched s.forgetMainPid) (idle : s.forgetMainPid.mainPid = 0) :
    Loaded ans s ((adoptMainPid cfg ans pid s.forgetMainPid).getD s.forgetMainPid) := by
  obtain ⟨control, state⟩ := controlPid_forgetMainPid s
  cases adopted : adoptMainPid cfg ans pid s.forgetMainPid with
  | none => exact ⟨watched, .inr (.inl idle), control, state⟩
  | some t =>
    obtain ⟨watched', main, control', state'⟩ :=
      watched_adopt watch watched idle (by rw [control]; exact other) adopted
    refine ⟨watched', .inr (.inr ?_), control'.trans control, state'.trans state⟩
    rw [Option.getD_some, main]
    exact found

theorem loaded_loadPidFile (watched : Watched s)
    (other : ∀ pid, ans.pidFile = some pid -> Acceptable cfg pid -> pid ≠ s.controlPid) :
    Loaded ans s (serviceLoadPidFile cfg ans s).1 := by
  have unchanged : Loaded ans s s := ⟨watched, .inl rfl, rfl, rfl⟩
  obtain ⟨forgotten, idle⟩ := watched.forgetMainPid
  unfold serviceLoadPidFile
  split
  · rename_i pid _ found
    split
    · exact unchanged
    · have loaded : Loaded ans s
          ((adoptMainPid cfg ans pid s.forgetMainPid).getD s.forgetMainPid) :=
        loaded_adopt watch found (other pid found) forgotten idle
      dsimp only
      split
      · rename_i adopted
        rwa [adopted] at loaded
      · rename_i adopted
        rwa [adopted] at loaded
  · exact unchanged

theorem loadPidFile_exited (watched : Watched s) (born : 0 < s.mainPid)
    (exited : ∀ pid, ans.pidFile = some pid -> pid ≠ s.mainPid ∧ pid ≠ s.controlPid) :
    (∃ t, serviceLoadPidFile cfg ans (s.unwatchPid s.mainPid) = (t, true) ∧
      Loaded ans s t ∧ t.mainPid ≠ s.mainPid) ∨
    ∃ t, serviceLoadPidFile cfg ans (s.unwatchPid s.mainPid) = (t, false) ∧
      Watched { t with mainPid := 0 } ∧ t.controlPid = s.controlPid ∧ t.state = s.state := by
  have known : s.mainPidKnown = true := by
    by_contra unknown
    have unborn := watched.known (by simpa using unknown)
    rw [unborn] at born
    exact Int32.lt_irrefl born
  have forgotten : (s.unwatchPid s.mainPid).forgetMainPid =
      { s.unwatchMainPid with mainPidKnown := false } := by
    simp [Service.forgetMainPid, Service.unwatchPid, Service.unwatchMainPid, known]
  have clear : Watched { s.unwatchMainPid with mainPidKnown := false } :=
    { watched.unwatchMainPid with known := fun _ => rfl }
  unfold serviceLoadPidFile
  split
  · rename_i pid _ found
    obtain ⟨changed, other⟩ := exited pid found
    rw [if_neg fun same => changed same.2, forgotten]
    dsimp only
    split
    · rename_i t adopted
      obtain ⟨watched', main, control, state⟩ :=
        watched_adopt watch clear rfl (fun _ => other) adopted
      refine .inl ⟨t, by rw [watch], ⟨watched', .inr (.inr ?_), control, state⟩, ?_⟩
      · rw [main]
        exact found
      · rw [main]
        exact changed
    · exact .inr ⟨_, rfl, { clear with }, rfl, rfl⟩
  · exact .inr ⟨_, rfl, { watched.unwatchMainPid with known := fun _ => rfl }, rfl, rfl⟩

end

theorem leads_mainGone (settled : Settled ans run) (success : Bool) :
    Leads ans (mainGone cfg ans success run) := by
  have supervised := settled.supervised
  unfold mainGone
  cases run.service.state with
  | startPost | reload | stop => exact leads_some settled
  | start =>
    dsimp only
    split
    · split
      · exact leads_some (passes_watched.enterStartPost supervised)
      · exact leads_some (passes_watched.enterSignal (by simp) false supervised)
    · split
      · exact leads_some (passes_watched.enterRunning success supervised)
      · exact leads_none
  | running => exact leads_some (passes_watched.enterRunning success supervised)
  | stopSigterm | stopSigkill =>
    dsimp only
    split
    · exact leads_some settled
    · exact leads_some (passes_watched.enterStopPost success supervised)
  | dead | startPre | exited | stopPost | finalSigterm | finalSigkill | failed | autoRestart =>
    exact leads_none

theorem leads_runNextMain (forks : Forks cfg ans) (watched : Watched run.service)
    (other : ∀ pid positive, ans.spawn .start = .forked pid positive -> pid ≠ run.service.controlPid)
    (placed : Placed run.service) (keeps : run.service.state.keepsMain = true) (success : Bool) :
    Leads ans (serviceRunNextMain cfg ans success run) := by
  unfold serviceRunNextMain
  split
  · rename_i command rest _
    split
    · exact leads_none
    · have prepared : Watched { (run.service.withResult success).unwatchMainPid with
          mainCommand := command :: rest } := { watched.unwatchMainPid with }
      unfold serviceSpawn
      cases answer : ans.spawn .start with
      | noFds | failed =>
        exact leads_some (passes_watched.enterStop false ⟨{ prepared with }, fresh_zero⟩)
      | forked pid positive =>
        have main := supervised_forkedMain forks prepared rfl answer (other pid positive answer)
          false (run.outputs ++ [.spawned .start command])
        refine leads_some ⟨main, ?_, ?_⟩
        · intro gone
          simp only [Run.update, setMainPid_acceptable (forks.acceptable .start pid positive answer),
            Option.getD_some, Service.watchPid, Service.unwatchMainPid, Service.unwatchPid,
            Service.withResult, keeps, Bool.true_eq_false] at gone
        · intro gone
          simp only [Run.update, setMainPid_acceptable (forks.acceptable .start pid positive answer),
            Option.getD_some, Service.watchPid, Service.unwatchMainPid, Service.unwatchPid,
            Service.withResult] at gone ⊢
          exact placed.control gone
  · exact leads_none

theorem leads_mainExited (forks : Forks cfg ans) (watched : Watched { run.service with mainPid := 0 })
    (other : ∀ pid positive, ans.spawn .start = .forked pid positive -> pid ≠ run.service.controlPid)
    (placed : Placed run.service) (keeps : run.service.state.keepsMain = true) (pid code status : Int32)
    (success : Bool) : Leads ans (mainExited cfg ans pid code status success run) := by
  unfold mainExited
  dsimp only
  split
  · refine leads_runNextMain forks ?_ ?_ ?_ ?_ _
    · exact { watched with }
    · exact other
    · exact ⟨fun gone => absurd (keeps.symm.trans gone) (by simp), placed.control⟩
    · exact keeps
  · refine leads_mainGone ?_ _
    exact ⟨⟨{ watched with }, fresh_zero⟩, fun _ => ⟨rfl, rfl⟩, placed.control⟩

theorem supervised_findMainPid (watch : ans.watchPid = true) {run' : Run}
    (supervised : Supervised ans run) (idle : run.service.controlPid = 0)
    (file : ∀ pid, ans.pidFile = some pid -> Fresh ans pid) (group : Fresh ans ans.cgroupPid)
    (found : findMainPid cfg ans run = some run') : Supervised ans run' := by
  have loaded : Loaded ans run.service (serviceLoadPidFile cfg ans run.service).1 :=
    loaded_loadPidFile watch supervised.watched fun pid _ acceptable same =>
      Int32.lt_irrefl (idle ▸ same ▸ acceptable.positive)
  revert loaded found
  unfold findMainPid
  generalize (serviceLoadPidFile cfg ans run.service).1 = t
  intro found loaded
  obtain ⟨t', searched, rfl⟩ := Option.map_eq_some_iff.mp found
  have unchanged : Supervised ans { run with service := t } := by
    refine ⟨loaded.watched, ?_⟩
    rcases loaded.main with same | gone | named
    · exact same ▸ supervised.fresh
    · exact gone ▸ fresh_zero
    · exact file _ named
  unfold serviceSearchMainPid at searched
  split at searched
  · cases searched
    exact unchanged
  · rename_i unknown
    split at searched
    · cases searched
    · split at searched
      · cases searched
        exact unchanged
      · rename_i positive
        cases searched
        have unborn : t.mainPid = 0 := loaded.watched.known (by simpa using (not_or.mp unknown).1)
        cases adopted : adoptMainPid cfg ans ans.cgroupPid t with
        | none => exact unchanged
        | some t' =>
          obtain ⟨watched, main, -, -⟩ := watched_adopt watch loaded.watched unborn
            (fun acceptable same => Int32.lt_irrefl (loaded.control.trans idle ▸ same ▸ acceptable.positive))
            adopted
          exact ⟨watched, main ▸ group⟩

theorem leads_controlGone (forks : Forks cfg ans) (watch : ans.watchPid = true)
    (settled : Settled ans run) (idle : run.service.controlPid = 0)
    (file : ∀ pid, ans.pidFile = some pid -> Fresh ans pid) (group : Fresh ans ans.cgroupPid)
    (success : Bool) : Leads ans (controlGone cfg ans success run) := by
  have supervised := settled.supervised
  have found : ∀ run', findMainPid cfg ans run = some run' -> Supervised ans run' :=
    fun _ found => supervised_findMainPid watch supervised idle file group found
  unfold controlGone
  cases here : run.service.state with
  | startPre =>
    dsimp only
    split
    · exact leads_enterStart forks supervised (settled.placed.main (by rw [here]; rfl)).1 idle
    · exact leads_some (passes_watched.enterSignal (by simp) false supervised)
  | start =>
    dsimp only
    split
    · exact leads_none
    · split
      · intro run' handled
        obtain ⟨known, foundKnown, rfl⟩ := Option.map_eq_some_iff.mp handled
        exact passes_watched.enterStartPost (found known foundKnown)
      · exact leads_some (passes_watched.enterSignal (by simp) false supervised)
  | startPost | reload =>
    intro run' handled
    obtain ⟨known, foundKnown, rfl⟩ := Option.map_eq_some_iff.mp handled
    have held : Supervised ans known := by
      split at foundKnown
      · exact found known foundKnown
      · cases foundKnown
        exact supervised
    exact passes_watched.enterRunning true (by exact ⟨{ held.watched with }, held.fresh⟩)
  | stop => exact leads_some (passes_watched.enterSignal (by simp) success supervised)
  | stopSigterm | stopSigkill =>
    dsimp only
    split
    · exact leads_some settled
    · exact leads_some (passes_watched.enterStopPost success supervised)
  | stopPost | finalSigterm | finalSigkill =>
    exact leads_some (passes_watched.enterDead success supervised)
  | dead | running | exited | failed | autoRestart => exact leads_none

theorem leads_runNextControl (settled : Settled ans run) (keeps : run.service.state.keepsControl = true)
    (success : Bool) : Leads ans (serviceRunNextControl cfg ans success run) := by
  have passes : Passes cfg ans (Supervised ans) (Settled ans) := passes_watched
  unfold serviceRunNextControl
  split
  · rename_i command rest id _ _
    split
    · exact leads_none
    · rename_i other
      have prepared : Supervised ans ((run.update (.withResult success)).update fun s =>
          { s.unwatchControlPid with controlCommand := command :: rest }) :=
        ⟨{ settled.supervised.watched.unwatchControlPid with }, settled.supervised.fresh⟩
      have passesMain : Passes cfg ans _ (Settled ans) :=
        passes_main fun state pid commands => state.keepsMain = false -> pid = 0 ∧ commands = []
      rcases passesMain.spawnControl other command rfl ⟨prepared, settled.placed.main⟩ with
        ⟨run', pid, spawned, same, held, main⟩ | ⟨run', spawned, -, held, -⟩
      · rw [spawned]
        refine leads_some ⟨held, main, ?_⟩
        intro gone
        have gone' : run.service.state.keepsControl = false := by
          rw [← gone]
          exact congrArg _ same.symm
        exact absurd (keeps.symm.trans gone') (by simp)
      · rw [spawned]
        dsimp only
        split
        · exact leads_some (passes.enterSignal (by simp) false held)
        · exact leads_some (passes.enterSignal (by simp) false held)
        · exact leads_some (passes.enterDead false held)
        · exact leads_some (passes.enterRunning true (passes.reloadFailed true held))
        · exact leads_some (passes.enterStop false held)
  · exact leads_none

theorem leads_controlExited (forks : Forks cfg ans) (watch : ans.watchPid = true)
    (watched : Watched { run.service with controlPid := 0 }) (fresh : Fresh ans run.service.mainPid)
    (placed : Placed run.service) (keeps : run.service.state.keepsControl = true)
    (file : ∀ pid, ans.pidFile = some pid -> Fresh ans pid) (group : Fresh ans ans.cgroupPid)
    (success : Bool) : Leads ans (controlExited cfg ans success run) := by
  unfold controlExited
  dsimp only
  split
  · refine leads_runNextControl ?_ ?_ _
    · exact ⟨⟨{ watched with }, fresh⟩, placed.main, fun _ => rfl⟩
    · exact keeps
  · refine leads_controlGone forks watch ?_ rfl file group _
    exact ⟨⟨{ watched with }, fresh⟩, placed.main, fun _ => rfl⟩

section

variable (orderly : Orderly cfg ans s event)
include orderly

theorem Orderly.fresh : Fresh ans s.mainPid := by
  intro id pid positive _ answer
  exact (orderly.forked id pid positive answer).1

theorem Orderly.freshFile (found : ans.pidFile = some pid) : Fresh ans pid := by
  rintro id forked positive _ answer rfl
  exact (orderly.forked id forked positive answer).2.2.1 found

theorem Orderly.freshGroup : Fresh ans ans.cgroupPid := by
  intro id pid positive _ answer
  exact (orderly.forked id pid positive answer).2.2.2

end

theorem leads_sigchld {code status : Int32} (positive : 0 < pid)
    (orderly : Orderly cfg ans s (.sigchld pid code status)) (watched : Watched s)
    (placed : Placed s) (outputs : List Output) :
    Leads ans (serviceSigchldEvent cfg ans pid code status ⟨s.unwatchPid pid, outputs⟩) := by
  unfold serviceSigchldEvent
  dsimp only
  split
  · rename_i main
    have main : s.mainPid = pid := main
    subst main
    have keeps : s.state.keepsMain = true := by
      by_contra gone
      have unborn := (placed.main (by simpa using gone)).1
      rw [unborn] at positive
      exact Int32.lt_irrefl positive
    have exited : ∀ pid, ans.pidFile = some pid -> pid ≠ s.mainPid ∧ pid ≠ s.controlPid :=
      fun other found => orderly.exited code status other rfl positive found
    have unborn : ∀ t : Service, t.state = s.state -> t.state.keepsMain = false ->
        t.mainPid = 0 ∧ t.mainCommand = [] := by
      intro t state gone
      rw [state, keeps] at gone
      cases gone
    have idle : ∀ t : Service, t.state = s.state -> t.controlPid = s.controlPid ->
        t.state.keepsControl = false -> t.controlPid = 0 := by
      intro t state control gone
      rw [control]
      exact placed.control (state ▸ gone)
    rcases loadPidFile_exited orderly.watch watched positive exited with
      ⟨t, result, loaded, -⟩ | ⟨t, result, watched', control, state⟩
    · rw [result]
      refine leads_some ⟨⟨loaded.watched, ?_⟩, unborn t loaded.state, idle t loaded.state loaded.control⟩
      rcases loaded.main with same | gone | named
      · exact same ▸ orderly.fresh
      · exact gone ▸ fresh_zero
      · exact orderly.freshFile named
    · rw [result]
      refine leads_mainExited orderly.forks ?_ ?_ ?_ ?_ _ _ _ _
      · exact watched'
      · intro forked positive answer
        rw [control]
        exact (orderly.forked .start forked positive answer).2.1
      · exact ⟨unborn t state, idle t state control⟩
      · rw [state]
        exact keeps
  · rename_i otherMain
    split
    · rename_i control
      have control : s.controlPid = pid := control
      subst control
      have keeps : s.state.keepsControl = true := by
        by_contra gone
        have idle := placed.control (by simpa using gone)
        rw [idle] at positive
        exact Int32.lt_irrefl positive
      refine leads_controlExited orderly.forks orderly.watch ?_ orderly.fresh ?_ keeps
        (fun _ found => orderly.freshFile found) orderly.freshGroup _
      · exact { watched.unwatchControlPid with }
      · exact ⟨placed.main, placed.control⟩
    · rename_i otherControl
      have absent : pid ∉ s.watched := by
        rw [watched.exactly pid]
        rintro ⟨-, same | same⟩
        · exact otherMain same.symm
        · exact otherControl same.symm
      have same : s.unwatchPid pid = s := by
        rw [Service.unwatchPid, Finset.erase_eq_of_notMem absent]
      rw [same]
      exact leads_some ⟨⟨watched, orderly.fresh⟩, placed⟩

theorem settled_notify {sender : Int32} {tags : List CString}
    (orderly : Orderly cfg ans s (.notify sender tags)) (settled : Settled ans ⟨s, []⟩) :
    Settled ans (serviceNotifyMessage cfg ans sender tags ⟨s, []⟩) := by
  have told : Settled ans ((Run.mk s []).update (notifyMainPid cfg ans tags)) := by
    unfold Run.update notifyMainPid
    dsimp only
    split
    · rename_i text given
      split
      · rename_i accepts
        split
        · rename_i pid parsed
          by_cases acceptable : Acceptable cfg pid
          · have same := orderly.announced sender tags text pid rfl given parsed accepts acceptable
            subst same
            rw [setMainPid_acceptable acceptable, Option.getD_some]
            exact ⟨⟨{ settled.supervised.watched with known := fun unknown => by cases unknown },
              settled.supervised.fresh⟩, settled.placed.main, settled.placed.control⟩
          · rw [setMainPid_unacceptable acceptable, Option.getD_none]
            exact settled
        · exact settled
      · exact settled
    · exact settled
  have status : ∀ run : Run, Settled ans run -> Settled ans (run.update (notifyStatus tags)) := by
    intro run settled
    unfold Run.update notifyStatus
    split
    · exact ⟨⟨{ settled.supervised.watched with }, settled.supervised.fresh⟩, settled.placed.main,
        settled.placed.control⟩
    · exact settled
  unfold serviceNotifyMessage
  split
  · exact settled
  · split
    · exact settled
    · refine status _ ?_
      split
      · exact passes_watched.enterStartPost told.supervised
      · exact told

theorem settled_busPid (orderly : Orderly cfg ans s (.busPid pid)) (settled : Settled ans ⟨s, []⟩) :
    Settled ans (serviceBusQueryPidDone cfg ans pid ⟨s, []⟩) := by
  unfold serviceBusQueryPidDone
  split
  · rename_i asked
    rw [Run.update, setMainPid_unacceptable (orderly.owner pid rfl asked.1 asked.2), Option.getD_none]
    exact settled
  · exact settled

theorem settled_busNameOwner (settled : Settled ans run) (newOwner : Bool) :
    Settled ans (serviceBusNameOwnerChange cfg ans newOwner run) := by
  have supervised : Supervised ans (run.update fun s => { s with busNameGood := newOwner }) :=
    ⟨{ settled.supervised.watched with }, settled.supervised.fresh⟩
  have settled' : Settled ans (run.update fun s => { s with busNameGood := newOwner }) :=
    ⟨supervised, settled.placed.main, settled.placed.control⟩
  unfold serviceBusNameOwnerChange
  dsimp only
  split
  · split
    · exact passes_watched.enterRunning true supervised
    · split
      · exact passes_watched.enterStartPost supervised
      · exact settled'
  · exact settled'

theorem settled_resetFailed (settled : Settled ans run) : Settled ans (serviceResetFailed run) := by
  have reset : Settled ans
      (if run.service.state = .failed then serviceSetState .dead run else run) := by
    split
    · exact settled_setState settled.supervised .dead
    · exact settled
  exact ⟨⟨{ reset.supervised.watched with }, reset.supervised.fresh⟩, reset.placed.main,
    reset.placed.control⟩

theorem leads_handle (orderly : Orderly cfg ans s event) (watched : Watched s)
    (placed : Placed s) : Leads ans (handle cfg ans event ⟨s, []⟩) := by
  have supervised : Supervised ans ⟨s, []⟩ := ⟨watched, orderly.fresh⟩
  have settled : Settled ans ⟨s, []⟩ := ⟨supervised, placed⟩
  cases event with
  | start => exact leads_start orderly.forks settled
  | stop => exact leads_stop settled
  | reload => exact leads_reload settled
  | sigchld pid code status =>
    simp only [handle]
    split
    · rename_i positive
      exact leads_sigchld positive orderly watched placed []
    · exact leads_some settled
  | timer =>
    simp only [handle]
    split
    · exact leads_timer ⟨{ watched with }, orderly.fresh⟩
    · exact leads_some settled
  | cgroupEmpty => exact leads_some (passes_watched.cgroupNotifyEvent supervised settled)
  | notify sender tags => exact leads_some (settled_notify orderly settled)
  | busNameOwner newOwner => exact leads_some (settled_busNameOwner settled newOwner)
  | busPid pid => exact leads_some (settled_busPid orderly settled)
  | resetFailed => exact leads_some (settled_resetFailed settled)

theorem watched_happens {happening : Happening} {t : Service} (inv : Watched s ∧ Placed s)
    (orderly : OrderlyStep cfg happening s) (taken : happens cfg happening s = some t) :
    Watched t ∧ Placed t := by
  obtain ⟨watched, placed⟩ := inv
  cases happening with
  | event ans event =>
    obtain ⟨run, dispatched, rfl⟩ := Option.map_eq_some_iff.mp taken
    unfold dispatch at dispatched
    split at dispatched
    · have settled := leads_handle orderly watched placed run dispatched
      exact ⟨settled.supervised.watched, settled.placed⟩
    · cases dispatched
      exact ⟨watched, placed⟩
  | free =>
    cases taken
    have clear : Watched (serviceDone s) := watched.unwatchMainPid.unwatchControlPid
    exact ⟨{ clear with known := fun _ => rfl }, fun _ => ⟨rfl, rfl⟩, fun _ => rfl⟩

theorem watches_exactly (reached : Steps.Reached {} (happens cfg) (OrderlyStep cfg) s) :
    WatchesExactly s := by
  have initial : Watched {} ∧ Placed {} := by
    refine ⟨⟨fun pid => ?_, fun _ => rfl, fun _ => rfl⟩, fun _ => ⟨rfl, rfl⟩, fun _ => rfl⟩
    simp only [Finset.notMem_empty, or_self, false_iff, not_and]
    rintro positive rfl
    exact Int32.lt_irrefl positive
  have inv : Watched s ∧ Placed s :=
    reached.invariant (fun s => Watched s ∧ Placed s) initial
      fun _ _ _ inv orderly taken => watched_happens inv orderly taken
  exact inv.1.exactly

end

namespace Examples

def chatty : Config := { cfg with notifyAccess := .all }

theorem oneFork_positive : (0 : Int32) < 100 := by decide

def oneFork : Answers :=
  { ans with
    spawn := fun
      | .start => .forked 100 oneFork_positive
      | _ => .failed }

def supervised : Service := ((dispatch chatty oneFork .start ⟨{}, []⟩).map Run.service).getD {}

def replaced : Service :=
  ((dispatch chatty oneFork (.notify 100 [.ofString "MAINPID=200"]) ⟨supervised, []⟩).map
    Run.service).getD {}

theorem oneFork_forked {id : ServiceExecCommand} {pid : Int32} {positive : 0 < pid}
    (answer : oneFork.spawn id = .forked pid positive) : id = .start ∧ pid = 100 := by
  cases id with
  | start =>
    cases answer
    exact ⟨rfl, rfl⟩
  | startPre | startPost | reload | stop | stopPost => cases answer

theorem orderly_start : Orderly chatty oneFork {} .start where
  watch := rfl
  forks :=
    { acceptable := fun _ _ _ answer => (oneFork_forked answer).2 ▸ ⟨by decide, by decide⟩
      distinct := fun _ _ _ _ _ answer answer' =>
        (oneFork_forked answer).1.trans (oneFork_forked answer').1.symm }
  forked := fun _ _ _ answer => (oneFork_forked answer).2 ▸ by decide
  announced := fun _ _ _ _ notified => by cases notified
  owner := fun _ asked => by cases asked
  exited := fun _ _ _ exited => by cases exited

theorem supervised_reached : Steps.Reached {} (happens chatty) (OrderlyStep chatty) supervised :=
  .step (.event oneFork .start) {} supervised .start (by exact orderly_start) rfl

theorem watches_supervised : WatchesExactly supervised :=
  watches_exactly supervised_reached

theorem replaced_reached : Steps.Reached {} (happens chatty) (fun _ _ => True) replaced :=
  .step (.event oneFork (.notify 100 [.ofString "MAINPID=200"])) supervised replaced
    (.step (.event oneFork .start) {} supervised .start trivial rfl) trivial rfl

theorem announced_unwatched :
    Steps.Reached {} (happens chatty) (fun _ _ => True) replaced ∧
    replaced.mainPid = 200 ∧ 200 ∉ replaced.watched ∧
    100 ∈ replaced.watched ∧ replaced.controlPid = 0 ∧ ¬ WatchesExactly replaced := by
  have main : replaced.mainPid = 200 := by decide
  have unwatched : 200 ∉ replaced.watched := by decide
  refine ⟨replaced_reached, main, unwatched, by decide, by decide, ?_⟩
  intro exactly
  exact unwatched ((exactly 200).mpr ⟨by decide, .inl main.symm⟩)

end Examples

end Systemd.Services
