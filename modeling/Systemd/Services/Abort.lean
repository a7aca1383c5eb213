import Systemd.Services.Passes

set_option autoImplicit false

namespace Systemd.Services

open List Option

structure Verified (cfg : Config) : Prop where
  start : cfg.execCommand .start ≠ []
  single : cfg.type ≠ .oneshot -> (cfg.execCommand .start).length ≤ 1

def ServiceState.active : ServiceState -> UnitActiveState
  | .dead => .inactive
  | .startPre | .start | .startPost | .autoRestart => .activating
  | .running | .exited => .active
  | .reload => .reloading
  | .stop | .stopSigterm | .stopSigkill | .stopPost | .finalSigterm | .finalSigkill => .deactivating
  | .failed => .failed

def passedOn (cfg : Config) (s : Service) : Event -> Bool
  | .start => !s.state.active.isActiveOrReloading
  | .stop => !s.state.active.isInactiveOrFailed
  | .reload => s.state.active = .active && !(cfg.execCommand .reload).isEmpty
  | _ => true

def dispatch (cfg : Config) (ans : Answers) (event : Event) (run : Run) : Option Run :=
  if passedOn cfg run.service event then handle cfg ans event run else some run

def Aborts (cfg : Config) (ans : Answers) (s : Service) : Event -> Prop
  | .sigchld pid _ _ =>
    0 < pid ∧ s.mainPid = pid ∧ s.state = .start ∧ cfg.type = .forking ∧
      followed cfg ans s = false
  | _ => False

structure Loose (cfg : Config) (s : Service) : Prop where
  main : s.mainPid = 0 ∨ 0 < s.mainPid ∧ s.mainPidKnown = true
  mainList : s.mainCommand <:+ cfg.execCommand .start
  controlList : s.controlCommand = [] ∨ ∃ id, s.controlCommandId = some id ∧
    s.controlCommand <:+ cfg.execCommand id ∧ (id = .start -> cfg.type = .forking)

structure Sound (cfg : Config) (s : Service) : Prop where
  loose : Loose cfg s
  placed : Placed s
  untimed : s.state.timed = false -> s.timer = false
  typed : s.state = .start -> cfg.type ≠ .simple
  starting : s.state = .start -> cfg.type ≠ .forking -> s.controlPid = 0

def Fine (cfg : Config) (result : Option Run) : Prop :=
  ∃ run, result = some run ∧ Sound cfg run.service

section

variable {cfg : Config} {ans : Answers}

variable {run : Run} {s : Service} {state : ServiceState} {commands : List ExecCommand} {pid : Int32}

theorem fine_some (sound : Sound cfg run.service) : Fine cfg (some run) :=
  ⟨run, rfl, sound⟩

theorem Loose.setState (loose : Loose cfg s) (state : ServiceState) : Loose cfg (s.setState state) := by
  rw [setState_eq]
  refine ⟨?_, ?_, ?_⟩
  · cases keeps : state.keepsMain with
    | false => exact .inl (by simp)
    | true => simpa using loose.main
  · cases keeps : state.keepsMain with
    | false => simp
    | true => simpa using loose.mainList
  · cases keeps : state.keepsControl with
    | false => exact .inl (by simp)
    | true => simpa using loose.controlList

theorem sound_setState (loose : Loose cfg run.service) (other : state ≠ .start) :
    Sound cfg (serviceSetState state run).service where
  loose := loose.setState state
  placed := placed_setState state run.service
  untimed := by
    simp only [serviceSetState, setState_eq]
    intro untimed
    simp [untimed]
  typed := fun starting => absurd ((state_serviceSetState state run).symm.trans starting) other
  starting := fun starting => absurd ((state_serviceSetState state run).symm.trans starting) other

theorem sound_setStart (loose : Loose cfg run.service) (typed : cfg.type ≠ .simple)
    (starting : cfg.type ≠ .forking -> run.service.controlPid = 0) :
    Sound cfg (serviceSetState .start run).service where
  loose := loose.setState .start
  placed := placed_setState .start run.service
  untimed := fun untimed => by
    rw [state_serviceSetState] at untimed
    cases untimed
  typed := fun _ => typed
  starting := fun _ => starting

theorem Sound.allowRestart (sound : Sound cfg s) : Sound cfg s.allowRestart :=
  ⟨{ sound.loose with }, ⟨sound.placed.main, sound.placed.control⟩, sound.untimed, sound.typed,
    sound.starting⟩

theorem loose_passes : Passes cfg ans (fun run => Loose cfg run.service)
    (fun run => Sound cfg run.service) where
  flags := fun _ _ _ _ loose => { loose with }
  state := fun _ _ other loose => sound_setState loose other
  allow := fun _ sound => sound.allowRestart
  absent := fun _ loose => { loose with controlList := .inl rfl }
  prepared := fun _ id _ _ other found loose =>
    { loose with
      controlList := .inr ⟨id, rfl, found ▸ suffix_refl _, fun same => absurd same other⟩ }
  refused := fun _ _ _ _ loose => { loose with }
  forked := fun _ _ _ _ _ _ _ _ _ loose => { loose with }

theorem loose_spawn (loose : Loose cfg run.service) (id : ServiceExecCommand) (command : ExecCommand)
    (timeout : Bool) : Loose cfg (serviceSpawn cfg ans id command timeout run).1.service := by
  unfold serviceSpawn
  split
  · dsimp only
    split
    · exact { loose with }
    · exact loose
  · exact { loose with }
  · exact { loose with }

theorem controlPid_spawn (id : ServiceExecCommand) (command : ExecCommand) (timeout : Bool)
    (run : Run) :
    (serviceSpawn cfg ans id command timeout run).1.service.controlPid = run.service.controlPid := by
  unfold serviceSpawn
  split
  · cases timeout with
    | true => rfl
    | false => rfl
  · rfl
  · rfl

theorem Loose.setMainPid (loose : Loose cfg s) (ans : Answers) (pid : Int32) :
    Loose cfg ((serviceSetMainPid cfg ans pid s).getD s) := by
  unfold serviceSetMainPid
  split
  · exact loose
  · rename_i accepted
    simp only [not_or, Int32.not_le] at accepted
    exact { loose with main := .inr ⟨Int32.lt_trans (by decide) accepted.1, rfl⟩ }

theorem fine_enterStart (verified : Verified cfg) (loose : Loose cfg run.service)
    (idle : run.service.controlPid = 0) : Fine cfg (serviceEnterStart cfg ans run) := by
  unfold serviceEnterStart
  split
  · rename_i absent
    exact absurd absent verified.start
  · rename_i command rest found
    split
    · rename_i many
      have short := verified.single many.2
      rw [found, length_cons] at short
      exact absurd (eq_nil_of_length_eq_zero (by omega)) many.1
    · split
      · rename_i forking
        have prepared : Loose cfg (run.update fun s => { s.unwatchControlPid with
            controlCommandId := some .start
            controlCommand := command :: rest
            mainCommand := [] }).service :=
          { loose with
            mainList := nil_suffix
            controlList := .inr ⟨.start, rfl, found ▸ suffix_refl _, fun _ => forking⟩ }
        have spawned : Loose cfg (serviceSpawn cfg ans .start command true _).1.service :=
          loose_spawn prepared .start command true
        revert spawned
        generalize serviceSpawn cfg ans .start command true _ = result
        obtain ⟨run', answer⟩ := result
        intro spawned
        cases answer with
        | some pid =>
          exact fine_some (sound_setStart (by exact { spawned with }) (by simp [forking])
            fun other => absurd forking other)
        | none => exact fine_some (loose_passes.enterSignal (by simp) false spawned)
      · rename_i unforked
        have prepared : Loose cfg (run.update fun s => { s.unwatchMainPid with
            controlCommandId := none
            controlCommand := []
            mainCommand := command :: rest }).service :=
          { loose with
            main := .inl rfl
            mainList := found ▸ suffix_refl _
            controlList := .inl rfl }
        have spawned : Loose cfg (serviceSpawn cfg ans .start command
            (cfg.type = .dbus || cfg.type = .notify) _).1.service :=
          loose_spawn prepared .start command _
        have idle' : (serviceSpawn cfg ans .start command
            (cfg.type = .dbus || cfg.type = .notify) (run.update fun s =>
            { s.unwatchMainPid with
              controlCommandId := none
              controlCommand := []
              mainCommand := command :: rest })).1.service.controlPid = 0 :=
          (controlPid_spawn .start command _ _).trans idle
        revert spawned idle'
        generalize serviceSpawn cfg ans .start command _ _ = result
        obtain ⟨run', answer⟩ := result
        intro spawned idle'
        cases answer with
        | some pid =>
          have known := spawned.setMainPid ans pid
          dsimp only
          split
          · exact fine_some (loose_passes.enterStartPost (by exact known))
          · rename_i typed
            have kept : Kept run'.service ((serviceSetMainPid cfg ans pid run'.service).getD
                run'.service) := kept_setMainPid ans pid run'.service
            exact fine_some (sound_setStart (by exact known) typed fun _ => kept.control.trans idle')
        | none => exact fine_some (loose_passes.enterSignal (by simp) false spawned)

theorem fine_enterStartPre (verified : Verified cfg) (loose : Loose cfg run.service) :
    Fine cfg (serviceEnterStartPre cfg ans run) :=
  loose_passes.enterControl (Fine cfg) (by simp) (by simp) (fun _ sound => fine_some sound)
    (fun _ loose idle => fine_enterStart verified loose idle)
    (fun _ loose => fine_some (loose_passes.enterDead false loose)) loose

section

variable (loose : Loose cfg s)
include loose

theorem Loose.adoptMainPid (ans : Answers) (pid : Int32) :
    Loose cfg ((adoptMainPid cfg ans pid s).getD s) := by
  have set := loose.setMainPid ans pid
  unfold Systemd.Services.adoptMainPid
  cases found : serviceSetMainPid cfg ans pid s with
  | none => exact loose
  | some t =>
    rw [found] at set
    simp only [map_some, getD_some] at set ⊢
    split
    · exact { set with }
    · exact set

theorem Loose.forgetMainPid : Loose cfg s.forgetMainPid := by
  unfold Service.forgetMainPid
  split
  · exact { loose with main := .inl rfl }
  · exact loose

theorem Loose.loadPidFile (ans : Answers) : Loose cfg (serviceLoadPidFile cfg ans s).1 := by
  unfold serviceLoadPidFile
  split
  · rename_i pid _ _
    split
    · exact loose
    · have found := loose.forgetMainPid.adoptMainPid ans pid
      dsimp only
      cases adopted : Systemd.Services.adoptMainPid cfg ans pid s.forgetMainPid with
      | none => exact loose.forgetMainPid
      | some t =>
        rw [adopted] at found
        exact found
  · exact loose

end

theorem loose_findMainPid (loose : Loose cfg run.service) :
    ∃ run', findMainPid cfg ans run = some run' ∧ Loose cfg run'.service := by
  have loaded := loose.loadPidFile ans
  unfold findMainPid serviceSearchMainPid
  split
  · exact ⟨_, rfl, loaded⟩
  · rename_i guess
    split
    · rename_i positive
      rcases loaded.main with absent | ⟨_, known⟩
      · rw [absent] at positive
        exact absurd positive (by decide)
      · exact absurd (.inl known) guess
    · split
      · exact ⟨_, rfl, loaded⟩
      · exact ⟨_, rfl, loaded.adoptMainPid ans ans.cgroupPid⟩

theorem fine_mainGone (sound : Sound cfg run.service) (keeps : run.service.state.keepsMain = true)
    (started : run.service.state = .start -> cfg.type ≠ .forking) (success : Bool) :
    Fine cfg (mainGone cfg ans success run) := by
  have loose := sound.loose
  unfold mainGone
  cases here : run.service.state with
  | start =>
    dsimp only
    split
    · split
      · exact fine_some (loose_passes.enterStartPost loose)
      · exact fine_some (loose_passes.enterSignal (by simp) false loose)
    · rename_i repeats
      split
      · exact fine_some (loose_passes.enterRunning success loose)
      · rename_i waits
        have typed := sound.typed here
        have forked := started here
        cases kind : cfg.type <;> simp [kind] at repeats waits typed forked
  | running => exact fine_some (loose_passes.enterRunning success loose)
  | stopSigterm | stopSigkill =>
    dsimp only
    split
    · exact fine_some sound
    · exact fine_some (loose_passes.enterStopPost success loose)
  | startPost | reload | stop => exact fine_some sound
  | dead | startPre | exited | stopPost | finalSigterm | finalSigkill | failed | autoRestart =>
    rw [here] at keeps
    cases keeps

theorem mainGone_forking (starting : run.service.state = .start) (forking : cfg.type = .forking)
    (success : Bool) : mainGone cfg ans success run = none := by
  simp [mainGone, starting, forking]

theorem more_cases (further : more commands = true) :
    ∃ first second rest, commands = first :: second :: rest := by
  match commands with
  | [] => cases further
  | [_] => cases further
  | first :: second :: rest => exact ⟨first, second, rest, rfl⟩

theorem suffix_tail {all : List ExecCommand} {first : ExecCommand}
    (suffix : first :: commands <:+ all) : commands <:+ all :=
  (suffix_cons first commands).trans suffix

theorem sound_spawn (sound : Sound cfg run.service) (id : ServiceExecCommand) (command : ExecCommand)
    {timeout : Bool} (fits : timeout = true -> run.service.state.timed = true) :
    Sound cfg (serviceSpawn cfg ans id command timeout run).1.service := by
  have disarmed : Sound cfg run.service.disarm :=
    ⟨{ sound.loose with }, ⟨sound.placed.main, sound.placed.control⟩, fun _ => rfl, sound.typed,
      sound.starting⟩
  unfold serviceSpawn
  split
  · dsimp only
    split
    · exact disarmed
    · exact sound
  · exact disarmed
  · refine ⟨{ sound.loose with }, ⟨sound.placed.main, sound.placed.control⟩, ?_, sound.typed,
      sound.starting⟩
    intro untimed
    cases timeout with
    | false => rfl
    | true => exact absurd (untimed.symm.trans (fits rfl)) (by decide)

theorem Sound.kept {t : Service} (sound : Sound cfg s) (loose : Loose cfg t) (kept : Kept s t)
    (keeps : s.state.keepsMain = true) : Sound cfg t where
  loose := loose
  placed :=
    { main := fun gone => by
        rw [kept.state, keeps] at gone
        cases gone
      control := fun gone => kept.control.trans (sound.placed.control (kept.state ▸ gone)) }
  untimed := fun untimed => kept.timer.trans (sound.untimed (kept.state ▸ untimed))
  typed := fun starting => sound.typed (kept.state ▸ starting)
  starting := fun starting other => kept.control.trans (sound.starting (kept.state ▸ starting) other)

theorem fine_runNextMain (verified : Verified cfg) (sound : Sound cfg run.service)
    (keeps : run.service.state.keepsMain = true) (further : more run.service.mainCommand = true)
    (success : Bool) : Fine cfg (serviceRunNextMain cfg ans success run) := by
  obtain ⟨first, second, rest, commands⟩ := more_cases further
  have suffix := sound.loose.mainList
  rw [commands] at suffix
  have oneshot : cfg.type = .oneshot := by
    by_contra other
    have short := verified.single other
    have long := suffix.length_le
    simp only [length_cons] at long
    omega
  unfold serviceRunNextMain
  rw [commands]
  dsimp only
  rw [if_neg (not_not.mpr oneshot)]
  have prepared : Sound cfg ((run.update (.withResult success)).update fun s =>
      { s.unwatchMainPid with mainCommand := second :: rest }).service := by
    refine ⟨{ sound.loose with main := .inl rfl, mainList := suffix_tail suffix }, ⟨?_, ?_⟩,
      sound.untimed, sound.typed, sound.starting⟩
    · intro gone
      exact absurd (gone.symm.trans keeps) (by decide)
    · exact sound.placed.control
  have spawned : Sound cfg (serviceSpawn cfg ans .start second false _).1.service :=
    sound_spawn prepared .start second (by simp)
  have same : (serviceSpawn cfg ans .start second false
      ((run.update (.withResult success)).update fun s =>
        { s.unwatchMainPid with mainCommand := second :: rest })).1.service.state =
      run.service.state := (spawn_spec .start second false _).state
  revert spawned same
  generalize serviceSpawn cfg ans .start second false _ = result
  obtain ⟨run', answer⟩ := result
  intro spawned same
  cases answer with
  | some pid =>
    refine fine_some (spawned.kept (spawned.loose.setMainPid ans pid)
      (kept_setMainPid ans pid run'.service) ?_)
    exact (congrArg ServiceState.keepsMain same).trans keeps
  | none => exact fine_some (loose_passes.enterStop false spawned.loose)

theorem timed_of_keepsControl (keeps : state.keepsControl = true) : state.timed = true := by
  cases state <;> first | rfl | cases keeps

section

variable (verified : Verified cfg)
include verified

section

variable (sound : Sound cfg run.service)
include sound

theorem fine_runNextControl (keeps : run.service.state.keepsControl = true)
    (started : run.service.state = .start -> cfg.type = .forking)
    (further : more run.service.controlCommand = true) (success : Bool) :
    Fine cfg (serviceRunNextControl cfg ans success run) := by
  obtain ⟨first, second, rest, commands⟩ := more_cases further
  obtain ⟨id, known, suffix, forks⟩ : ∃ id, run.service.controlCommandId = some id ∧
      first :: second :: rest <:+ cfg.execCommand id ∧ (id = .start -> cfg.type = .forking) := by
    rcases sound.loose.controlList with empty | held
    · rw [commands] at empty
      cases empty
    · rwa [commands] at held
  have other : id ≠ .start := by
    rintro rfl
    have short := verified.single (by simp [forks rfl])
    have long := suffix.length_le
    simp only [length_cons] at long
    omega
  unfold serviceRunNextControl
  rw [commands, known]
  dsimp only
  rw [if_neg other]
  have prepared : Sound cfg ((run.update (.withResult success)).update fun s =>
      { s.unwatchControlPid with controlCommand := second :: rest }).service := by
    refine ⟨{ sound.loose with controlList := .inr ⟨id, known, suffix_tail suffix, forks⟩ }, ⟨?_, ?_⟩,
      sound.untimed, sound.typed, ?_⟩
    · exact sound.placed.main
    · exact fun _ => rfl
    · exact fun _ _ => rfl
  have spawned : Sound cfg (serviceSpawn cfg ans id second true _).1.service :=
    sound_spawn prepared id second fun _ => timed_of_keepsControl keeps
  have same : (serviceSpawn cfg ans id second true
      ((run.update (.withResult success)).update fun s =>
        { s.unwatchControlPid with controlCommand := second :: rest })).1.service.state =
      run.service.state := (spawn_spec id second true _).state
  revert spawned same
  generalize serviceSpawn cfg ans id second true _ = result
  obtain ⟨run', answer⟩ := result
  intro spawned same
  have loose := spawned.loose
  cases answer with
  | some pid =>
    refine fine_some ⟨{ spawned.loose with }, ⟨spawned.placed.main, ?_⟩, spawned.untimed, spawned.typed, ?_⟩
    · intro gone
      have gone : run'.service.state.keepsControl = false := gone
      rw [same, keeps] at gone
      cases gone
    · intro starting unforked
      exact absurd (started (same.symm.trans starting)) unforked
  | none =>
    dsimp only
    split
    · exact fine_some (loose_passes.enterSignal (by simp) false loose)
    · exact fine_some (loose_passes.enterSignal (by simp) false loose)
    · exact fine_some (loose_passes.enterDead false loose)
    · exact fine_some (loose_passes.enterRunning true (by exact { loose with }))
    · exact fine_some (loose_passes.enterStop false loose)

theorem fine_controlGone (keeps : run.service.state.keepsControl = true)
    (idle : run.service.controlPid = 0) (started : run.service.state = .start -> cfg.type = .forking)
    (success : Bool) : Fine cfg (controlGone cfg ans success run) := by
  have loose := sound.loose
  have running : Fine cfg
      ((if success then findMainPid cfg ans run else some run).map fun run =>
        serviceEnterRunning cfg ans true
          (run.update fun s => { s with reloadFailure := !success })) := by
    cases success with
    | true =>
      obtain ⟨run', found, loose'⟩ : ∃ run', findMainPid cfg ans run = some run' ∧
          Loose cfg run'.service := loose_findMainPid loose
      simp only [if_true, found, map_some]
      exact fine_some (loose_passes.enterRunning true (by exact { loose' with }))
    | false => exact fine_some (loose_passes.enterRunning true (by exact { loose with }))
  unfold controlGone
  cases here : run.service.state with
  | startPre =>
    dsimp only
    split
    · exact fine_enterStart verified loose idle
    · exact fine_some (loose_passes.enterSignal (by simp) false loose)
  | start =>
    dsimp only
    rw [if_neg (not_not.mpr (started here))]
    split
    · obtain ⟨run', found, loose'⟩ : ∃ run', findMainPid cfg ans run = some run' ∧
          Loose cfg run'.service := loose_findMainPid loose
      rw [found]
      exact fine_some (loose_passes.enterStartPost loose')
    · exact fine_some (loose_passes.enterSignal (by simp) false loose)
  | startPost | reload => exact running
  | stop => exact fine_some (loose_passes.enterSignal (by simp) success loose)
  | stopSigterm | stopSigkill =>
    dsimp only
    split
    · exact fine_some sound
    · exact fine_some (loose_passes.enterStopPost success loose)
  | stopPost | finalSigterm | finalSigkill => exact fine_some (loose_passes.enterDead success loose)
  | dead | running | exited | failed | autoRestart =>
    rw [here] at keeps
    cases keeps

theorem fine_mainExited (keeps : run.service.state.keepsMain = true)
    (started : run.service.state = .start -> cfg.type ≠ .forking) (pid code status : Int32)
    (success : Bool) : Fine cfg (mainExited cfg ans pid code status success run) := by
  unfold mainExited
  dsimp only
  generalize (success || ignores run.service.mainCommand) = success
  have gone : Sound cfg (run.update fun s => { s with
      mainPid := 0
      mainExecStatus := execStatusExit ans.clock pid code status s.mainExecStatus
      failure := s.failure || !success }).service :=
    ⟨{ sound.loose with main := .inl rfl },
      ⟨fun gone => ⟨rfl, (sound.placed.main gone).2⟩, sound.placed.control⟩,
      sound.untimed, sound.typed, sound.starting⟩
  split
  · rename_i further
    exact fine_runNextMain verified gone keeps (Bool.and_eq_true_iff.mp further).1 success
  · refine fine_mainGone ?_ (by exact keeps) (by exact started) success
    exact ⟨{ gone.loose with mainList := nil_suffix }, ⟨fun _ => ⟨rfl, rfl⟩, gone.placed.control⟩,
      gone.untimed, gone.typed, gone.starting⟩

end

theorem mainExited_forking (loose : Loose cfg run.service) (starting : run.service.state = .start)
    (forking : cfg.type = .forking) (pid code status : Int32) (success : Bool) :
    mainExited cfg ans pid code status success run = none := by
  have last : more run.service.mainCommand = false := by
    by_contra further
    obtain ⟨first, second, rest, commands⟩ := more_cases (by simpa using further)
    have long := loose.mainList.length_le
    have short := verified.single (by simp [forking])
    simp only [commands, length_cons] at long
    omega
  unfold mainExited
  simp only [Run.update, last, Bool.false_and, Bool.false_eq_true, if_false]
  exact mainGone_forking (by exact starting) forking _

theorem fine_controlExited (sound : Sound cfg run.service)
    (keeps : run.service.state.keepsControl = true)
    (started : run.service.state = .start -> cfg.type = .forking) (success : Bool) :
    Fine cfg (controlExited cfg ans success run) := by
  unfold controlExited
  dsimp only
  generalize (success || ignores run.service.controlCommand) = success
  have gone : Sound cfg (run.update fun s =>
      { s with controlPid := 0, failure := s.failure || !success }).service :=
    ⟨{ sound.loose with }, ⟨sound.placed.main, fun _ => rfl⟩, sound.untimed, sound.typed,
      fun _ _ => rfl⟩
  split
  · rename_i further
    exact fine_runNextControl verified gone keeps started (Bool.and_eq_true_iff.mp further).1 success
  · refine fine_controlGone verified ?_ (by exact keeps) (by rfl) (by exact started) success
    exact ⟨{ gone.loose with controlList := .inl rfl }, ⟨gone.placed.main, gone.placed.control⟩,
      gone.untimed, gone.typed, gone.starting⟩

end

theorem Sound.mainPid_keeps (sound : Sound cfg s) (positive : 0 < pid) (main : s.mainPid = pid) :
    s.state.keepsMain = true := by
  by_contra gone
  have idle := (sound.placed.main (by simpa using gone)).1
  exact Int32.ne_of_lt positive (idle.symm.trans main)

theorem Sound.controlPid_keeps (sound : Sound cfg s) (positive : 0 < pid)
    (control : s.controlPid = pid) :
    s.state.keepsControl = true ∧ (s.state = .start -> cfg.type = .forking) := by
  constructor
  · by_contra gone
    have idle := sound.placed.control (by simpa using gone)
    exact Int32.ne_of_lt positive (idle.symm.trans control)
  · intro starting
    by_contra other
    exact Int32.ne_of_lt positive ((sound.starting starting other).symm.trans control)

theorem sigchld_cases (verified : Verified cfg) (sound : Sound cfg s) {code status : Int32}
    (positive : 0 < pid) :
    Aborts cfg ans s (.sigchld pid code status) ∧
      serviceSigchldEvent cfg ans pid code status ⟨s, []⟩ = none ∨
    ¬ Aborts cfg ans s (.sigchld pid code status) ∧
      Fine cfg (serviceSigchldEvent cfg ans pid code status ⟨s, []⟩) := by
  unfold serviceSigchldEvent Aborts
  dsimp only
  by_cases main : s.mainPid = pid
  · simp only [main, if_true, positive, true_and]
    have keeps := sound.mainPid_keeps positive main
    have snd : (serviceLoadPidFile cfg ans s).2 = followed cfg ans s :=
      loadPidFile_snd s
    have kept : Kept s (serviceLoadPidFile cfg ans s).1 := kept_loadPidFile ans s
    have loaded := sound.kept (sound.loose.loadPidFile ans) kept keeps
    revert snd kept loaded
    generalize serviceLoadPidFile cfg ans s = result
    obtain ⟨t, done⟩ := result
    intro snd kept loaded
    have same : t.state = s.state := kept.state
    cases done with
    | true =>
      refine .inr ⟨?_, fine_some loaded⟩
      rw [← snd]
      simp
    | false =>
      dsimp only at snd loaded ⊢
      by_cases starting : s.state = .start ∧ cfg.type = .forking
      · refine .inl ⟨⟨starting.1, starting.2, snd.symm⟩, ?_⟩
        exact mainExited_forking verified loaded.loose (same.trans starting.1) starting.2 _ _ _ _
      · refine .inr ⟨fun aborts => starting ⟨aborts.1, aborts.2.1⟩, ?_⟩
        refine fine_mainExited verified loaded ?_ ?_ _ _ _ _
        · exact (congrArg ServiceState.keepsMain same).trans keeps
        · exact fun here forking => starting ⟨same.symm.trans here, forking⟩
  · simp only [main, if_false, false_and, and_false, not_false_eq_true, true_and, false_or]
    by_cases control : s.controlPid = pid
    · rw [if_pos control]
      obtain ⟨keeps, started⟩ := sound.controlPid_keeps positive control
      exact fine_controlExited verified sound keeps started _
    · rw [if_neg control]
      exact fine_some sound

theorem fine_start (verified : Verified cfg) (sound : Sound cfg run.service)
    (passed : passedOn cfg run.service .start = true) : Fine cfg (serviceStart cfg ans run) := by
  unfold serviceStart
  cases here : run.service.state with
  | stop | stopSigterm | stopSigkill | stopPost | finalSigterm | finalSigkill | startPre | start
  | startPost => exact fine_some sound
  | dead | failed | autoRestart =>
    have idle := sound.placed.main (by rw [here]; rfl)
    dsimp only
    split
    · exact fine_some sound
    · exact fine_enterStartPre verified (by exact { sound.loose with main := .inl idle.1 })
  | running | exited | reload =>
    rw [passedOn, here] at passed
    cases passed

section

variable (sound : Sound cfg run.service)
include sound

theorem fine_stop (passed : passedOn cfg run.service .stop = true) :
    Fine cfg (serviceStop cfg ans run) := by
  have forbidden : Sound cfg (run.update fun s => { s with forbidRestart := true }).service :=
    ⟨{ sound.loose with }, ⟨sound.placed.main, sound.placed.control⟩, sound.untimed, sound.typed,
      sound.starting⟩
  have same : passedOn cfg (run.update fun s => { s with forbidRestart := true }).service .stop =
      true := passed
  unfold serviceStop
  revert forbidden same
  generalize (run.update fun s => { s with forbidRestart := true }) = run
  intro sound passed
  dsimp only
  have loose := sound.loose
  cases here : run.service.state with
  | stop | stopSigterm | stopSigkill | stopPost | finalSigterm | finalSigkill => exact fine_some sound
  | autoRestart => exact fine_some (sound_setState loose (by simp))
  | startPre | start | startPost | reload => exact fine_some (loose_passes.enterSignal (by simp) true loose)
  | running | exited => exact fine_some (loose_passes.enterStop true loose)
  | dead | failed =>
    rw [passedOn, here] at passed
    cases passed

theorem fine_reload (passed : passedOn cfg run.service .reload = true) :
    Fine cfg (serviceReload cfg ans run) := by
  unfold serviceReload
  cases here : run.service.state with
  | running | exited => exact fine_some (loose_passes.enterReload sound.loose)
  | dead | startPre | start | startPost | reload | stop | stopSigterm | stopSigkill | stopPost
  | finalSigterm | finalSigkill | failed | autoRestart =>
    simp [passedOn, here, ServiceState.active] at passed

theorem sound_notifyMessage (pid : Int32) (tags : List CString) :
    Sound cfg (serviceNotifyMessage cfg ans pid tags run).service := by
  have moved : Sound cfg (notifyMainPid cfg ans tags run.service) := by
    unfold notifyMainPid
    split
    · split
      · rename_i accepts
        split
        · exact sound.kept (sound.loose.setMainPid ans _) (kept_setMainPid ans _ run.service)
            (keepsMain_of_accepts accepts)
        · exact sound
      · exact sound
    · exact sound
  have status : ∀ s, Sound cfg s -> Sound cfg (notifyStatus tags s) := by
    intro s sound
    unfold notifyStatus
    split
    · exact ⟨{ sound.loose with }, ⟨sound.placed.main, sound.placed.control⟩, sound.untimed,
        sound.typed, sound.starting⟩
    · exact sound
  unfold serviceNotifyMessage
  split
  · exact sound
  · split
    · exact sound
    · dsimp only
      apply status
      split
      · exact loose_passes.enterStartPost (by exact moved.loose)
      · exact moved

theorem sound_busNameOwnerChange (newOwner : Bool) :
    Sound cfg (serviceBusNameOwnerChange cfg ans newOwner run).service := by
  have changed : Sound cfg (run.update fun s => { s with busNameGood := newOwner }).service :=
    ⟨{ sound.loose with }, ⟨sound.placed.main, sound.placed.control⟩, sound.untimed, sound.typed,
      sound.starting⟩
  unfold serviceBusNameOwnerChange
  dsimp only
  split
  · split
    · exact loose_passes.enterRunning true changed.loose
    · split
      · exact loose_passes.enterStartPost changed.loose
      · exact changed
  · exact changed

theorem sound_busQueryPidDone (pid : Int32) :
    Sound cfg (serviceBusQueryPidDone cfg ans pid run).service := by
  unfold serviceBusQueryPidDone
  split
  · rename_i asked
    exact sound.kept (sound.loose.setMainPid ans pid) (kept_setMainPid ans pid run.service)
      (keepsMain_of_accepts asked.2)
  · exact sound

theorem sound_resetFailed : Sound cfg (serviceResetFailed run).service := by
  have dead : Sound cfg
      (if run.service.state = .failed then serviceSetState .dead run else run).service := by
    split
    · exact sound_setState sound.loose (by simp)
    · exact sound
  exact ⟨{ dead.loose with }, ⟨dead.placed.main, dead.placed.control⟩, dead.untimed, dead.typed,
    dead.starting⟩

end

theorem dispatch_cases (verified : Verified cfg) (sound : Sound cfg s) (event : Event) :
    Aborts cfg ans s event ∧ dispatch cfg ans event ⟨s, []⟩ = none ∨
    ¬ Aborts cfg ans s event ∧ Fine cfg (dispatch cfg ans event ⟨s, []⟩) := by
  unfold dispatch
  split
  · rename_i passed
    cases event with
    | start => exact .inr ⟨fun aborts => aborts, fine_start verified sound passed⟩
    | stop => exact .inr ⟨fun aborts => aborts, fine_stop sound passed⟩
    | reload => exact .inr ⟨fun aborts => aborts, fine_reload sound passed⟩
    | sigchld pid code status =>
      simp only [handle]
      by_cases positive : 0 < pid
      · rw [if_pos positive]
        have forgotten : Sound cfg (s.unwatchPid pid) :=
          ⟨{ sound.loose with }, ⟨sound.placed.main, sound.placed.control⟩, sound.untimed, sound.typed,
            sound.starting⟩
        exact sigchld_cases verified forgotten positive
      · rw [if_neg positive]
        exact .inr ⟨fun aborts => positive aborts.1, fine_some sound⟩
    | timer =>
      refine .inr ⟨fun aborts => aborts, ?_⟩
      simp only [handle]
      split
      · rename_i armed
        have timed : s.state.timed = true := by
          by_contra untimed
          exact absurd (armed.symm.trans (sound.untimed (by simpa using untimed))) (by decide)
        exact loose_passes.timerEvent (fun _ sound => sound.loose) (by exact { sound.loose with })
          (by exact timed)
      · exact fine_some sound
    | cgroupEmpty => exact .inr ⟨fun aborts => aborts, fine_some (loose_passes.cgroupNotifyEvent sound.loose sound)⟩
    | notify pid tags => exact .inr ⟨fun aborts => aborts, fine_some (sound_notifyMessage sound pid tags)⟩
    | busNameOwner newOwner =>
      exact .inr ⟨fun aborts => aborts, fine_some (sound_busNameOwnerChange sound newOwner)⟩
    | busPid pid => exact .inr ⟨fun aborts => aborts, fine_some (sound_busQueryPidDone sound pid)⟩
    | resetFailed => exact .inr ⟨fun aborts => aborts, fine_some (sound_resetFailed sound)⟩
  · rename_i refused
    refine .inr ⟨?_, fine_some sound⟩
    cases event <;> simp [passedOn, Aborts] at refused ⊢

def dispatched (cfg : Config) (step : Answers × Event) (s : Service) : Option Service :=
  (dispatch cfg step.1 step.2 ⟨s, []⟩).map Run.service

theorem sound_reached (verified : Verified cfg)
    (reached : Steps.Reached {} (dispatched cfg) (fun _ _ => True) s) : Sound cfg s := by
  have initial : Sound cfg {} :=
    ⟨⟨.inl rfl, nil_suffix, .inl rfl⟩, ⟨fun _ => ⟨rfl, rfl⟩, fun _ => rfl⟩, fun _ => rfl,
      fun starting => (by cases starting), fun starting => (by cases starting)⟩
  refine reached.invariant (Sound cfg) initial ?_
  rintro ⟨ans, event⟩ s t sound - taken
  obtain ⟨run, handled, rfl⟩ := map_eq_some_iff.mp taken
  rcases dispatch_cases verified sound event with ⟨-, failed⟩ | ⟨-, run', fine, sound'⟩
  · rw [failed] at handled
    cases handled
  · rw [fine] at handled
    exact some.inj handled ▸ sound'

theorem assertion_fails_iff (verified : Verified cfg)
    (reached : Steps.Reached {} (dispatched cfg) (fun _ _ => True) s) (ans : Answers)
    (event : Event) : dispatch cfg ans event ⟨s, []⟩ = none ↔ Aborts cfg ans s event := by
  have sound := sound_reached verified reached
  rcases dispatch_cases verified sound event with ⟨aborts, failed⟩ | ⟨goes, run, fine, -⟩
  · exact ⟨fun _ => aborts, fun _ => failed⟩
  · refine ⟨fun failed => ?_, fun aborts => absurd aborts goes⟩
    rw [fine] at failed
    cases failed

/-- What a service holds fits its state. -/
theorem states_own (verified : Verified cfg)
    (reached : Steps.Reached {} (dispatched cfg) (fun _ _ => True) s) :
    Placed s ∧ (s.state.timed = false -> s.timer = false) ∧ s.mainCommand <:+ cfg.execCommand .start ∧
      (s.controlCommand = [] ∨ ∃ id, s.controlCommandId = some id ∧ s.controlCommand <:+ cfg.execCommand id) := by
  obtain ⟨⟨_, main, control⟩, placed, untimed, _, _⟩ := sound_reached verified reached
  exact ⟨placed, untimed, main, control.imp_right fun ⟨id, own, rest, _⟩ => ⟨id, own, rest⟩⟩

end

namespace Examples

def forking : Config := { cfg with type := .forking, notifyAccess := .all }

def forked : Service := ((dispatch forking ans .start ⟨{}, []⟩).map Run.service).getD {}

def announced : Service :=
  ((dispatch forking ans (.notify 100 [.ofString "MAINPID=200"]) ⟨forked, []⟩).map
    Run.service).getD {}

theorem forking_verified : Verified forking :=
  ⟨by decide, fun _ => by decide⟩

theorem forked_reached : Steps.Reached {} (dispatched forking) (fun _ _ => True) forked :=
  .step (ans, .start) {} forked .start trivial rfl

theorem announced_reached : Steps.Reached {} (dispatched forking) (fun _ _ => True) announced :=
  .step (ans, .notify 100 [.ofString "MAINPID=200"]) forked announced forked_reached trivial rfl

theorem assertion_fails_forked_iff :
    dispatch forking ans (.sigchld 100 1 0) ⟨forked, []⟩ = none ↔
      Aborts forking ans forked (.sigchld 100 1 0) :=
  assertion_fails_iff forking_verified forked_reached ans (.sigchld 100 1 0)

theorem forked_own : forked.state = .start ∧ Placed forked :=
  ⟨rfl, (states_own forking_verified forked_reached).1⟩

theorem announced_exit_aborts :
    Verified forking ∧ Steps.Reached {} (dispatched forking) (fun _ _ => True) announced ∧
    announced.state = .start ∧ announced.mainPid = 200 ∧
    dispatch forking ans (.sigchld 200 1 0) ⟨announced, []⟩ = none :=
  ⟨forking_verified, announced_reached, rfl, by decide, by decide⟩

end Examples

end Systemd.Services
