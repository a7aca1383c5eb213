import Systemd.Loading.Kept

set_option autoImplicit false

namespace Systemd.Loading

open List Option

section

variable {U : Type}

def lookup (h : Host U) (n : CString) : Option Found :=
  if unitNameToType n = some .snapshot then
    none
  else
    match findFile h n with
    | .error _ => none
    | .ok (some found) => some found
    | .ok none =>
      match unitNameToInstance n, unitNameTemplate n with
      | some (some _), some k =>
        match findFile h k with
        | .ok place => place
        | .error _ => none
      | _, _ => none

def completed (n k : CString) : Option CString :=
  if unitNameIsTemplate k then
    match unitNameToInstance n with
    | some (some part) => unitNameReplaceInstance k part
    | _ => none
  else
    some k

def idOf (n : CString) (found : Found) : CString :=
  match found.id with
  | none => n
  | some k => (completed n k).getD n

def fragmentAt (h : Host U) (file : CString) : Option CString :=
  match h.openNoFollow file with
  | .file contents =>
    match contents.result with
    | .ok () => some file
    | .error _ => if contents.nullOrEmpty then some file else none
  | _ => none

def Fitting (n k : CString) : Prop :=
  ∃ x t part part', completed n k = some x ∧ Loadable x t part ∧ unitNameToType n = some t ∧
    t.noAlias = false ∧ unitNameToInstance n = some part' ∧ part.isSome = part'.isSome

def Refused (h : Host U) (n : CString) : Prop :=
  ∀ found, lookup h n = some found -> ∃ k ∈ found.names, completed n k ≠ some n ∧ ¬Fitting n k

-- A name that the file gives to the unit with this id.
def Found.Names (found : Found) (id x : CString) : Prop :=
  ∃ words, Directive.names words ∈ found.contents.directives (some id) ∧ x ∈ words

-- The names of the links, and those that Names= adds to them.
def InChain (h : Host U) (n x : CString) : Prop :=
  ∃ found, lookup h n = some found ∧
    ((∃ k ∈ found.names, completed n k = some x) ∨ found.Names (idOf n found) x)

def Directive.pulls : Directive -> Bool
  | .dependencies _ _ | .unit _ => true
  | _ => false

def Directive.gives : Directive -> Bool
  | .names _ | .provides _ => true
  | _ => false

def resolved (id : CString) (part : Option CString) (word : CString) : Option CString :=
  if unitNameIsTemplate word then
    unitNameReplaceInstance word (part.getD (unitNameToPrefix id))
  else
    some word

def Directive.Asks (id : CString) (part : Option CString) : Directive -> CString -> Prop
  | .dependencies _ words, s => ∃ word ∈ words, resolved id part word = some s
  | .unit name, s => s = name
  | .needs _ name, s => resolved id part name = some s
  | _, _ => False

inductive Loaded (h : Host U) (asked : List CString) : CString -> Prop where
  | asked (n : CString) : n ∈ asked -> Loaded h asked n
  | parsed (n : CString) (found : Found) (part : Option CString) (directive : Directive) (s : CString) :
      Loaded h asked n -> lookup h n = some found -> unitNameToInstance (idOf n found) = some part ->
      directive ∈ found.contents.directives (some (idOf n found)) ->
      directive.Asks (idOf n found) part s -> unitNameIsValid s false = true -> Loaded h asked s
  | added (l : Loader U) (u : U) (n i : CString) (part : Option CString) (directive : Directive)
      (s : CString) : Loaded h asked n ->
      (i = n ∨ ∃ found, lookup h n = some found ∧ i = idOf n found) -> l.registry.id u = some i ->
      unitNameToInstance i = some part -> directive ∈ (h.extras l u).1 -> directive.Asks i part s ->
      unitNameIsValid s false = true -> Loaded h asked s

def Known (h : Host U) (asked : List CString) (x : CString) : Prop :=
  Loaded h asked x ∨ ∃ n, Loaded h asked n ∧ InChain h n x

def Joins (h : Host U) (asked : List CString) (i file x : CString) : Prop :=
  ∃ n found, Loaded h asked n ∧ ¬Refused h n ∧ lookup h n = some found ∧ idOf n found = i ∧
    found.filename = file ∧ (x = n ∨ InChain h n x)

structure Sole (h : Host U) (asked : List CString) (n x : CString) : Prop where
  unloaded : ¬Loaded h asked x
  only : ∀ m, Loaded h asked m -> InChain h m x -> m = n

/-- The chain starts at the unit's own name or its template. What follows is refused, or all of it is
plain names, or all of it is met here only. -/
inductive Follows (h : Host U) (asked : List CString) (n : CString) : List CString -> Prop where
  | refused (k : CString) (rest : List CString) : completed n k ≠ some n -> ¬Fitting n k ->
      (∀ x, completed n k = some x -> Sole h asked n x) -> Follows h asked n (k :: rest)
  | shared (back : List CString) :
      (∀ k ∈ back, Fitting n k ∧ unitNameIsTemplate k = false) -> Follows h asked n back
  | sole (back : List CString) :
      (∀ k ∈ back, Fitting n k ∧ ∀ x, completed n k = some x ->
        Sole h asked n x ∧ unitNameToInstance x = unitNameToInstance n) -> Follows h asked n back

structure Fits (h : Host U) (asked : List CString) (n : CString) (found : Found) : Prop where
  chain : ∃ front back, found.names.members = front ++ back ∧
    (∀ k ∈ front, completed n k = some n) ∧ Follows h asked n back
  pulls : ∀ directive ∈ found.contents.directives (some (idOf n found)), directive.pulls = true ∨
    ∃ words, directive = .names words ∧
      ∀ x ∈ words, x = n ∨ unitNameIsTemplate x = false ∧ Fitting n x ∧ Sole h asked n x

structure Agreeing (h : Host U) (asked : List CString) : Prop where
  fits : ∀ n found, Loaded h asked n -> lookup h n = some found -> Fits h asked n found
  meets : ∀ x i file i' file', Joins h asked i file x -> Joins h asked i' file' x -> i = i' ∧ file = file'
  found : ∀ x i file, Loaded h asked x -> Joins h asked i file x -> ¬Refused h x
  extras : ∀ l u, ∀ directive ∈ (h.extras l u).1, directive.gives = false
  directories : ∀ path, h.openDirectory path = .error enoent
  scripts : h.sysvinitPath = []
  few : ∃ all : List CString, all.length ≤ managerMaxNames ∧ ∀ x, Known h asked x -> x ∈ all

end

section

variable {U : Type} {h : Host U}

theorem replaceInstance_plain {k part x : CString} {byte : UInt8} {rest : List UInt8}
    (begins : part.bytes = byte :: rest) (ne : byte ≠ '.'.toUInt8)
    (replaced : unitNameReplaceInstance k part = some x) : unitNameIsTemplate x = false := by
  rw [unitNameReplaceInstance] at replaced
  cases first : strchr k.bytes '@'.toUInt8 with
  | none => simp [first] at replaced
  | some p =>
    cases last : strrchr k.bytes '.'.toUInt8 with
    | none => simp [first, last] at replaced
    | some e =>
      simp only [first, last, some.injEq] at replaced
      obtain ⟨absent, split⟩ := strchr_split first
      have kept : 0 ∉ k.bytes.take (p + 1) ++ part.bytes ++ k.bytes.drop e := by
        simp only [mem_append, not_or]
        exact ⟨⟨fun mem => k.terminated (mem_of_mem_take mem), part.terminated⟩,
          fun mem => k.terminated (mem_of_mem_drop mem)⟩
      have bytes := congrArg CString.bytes replaced
      rw [CString.ofBuffer_bytes kept, split, begins] at bytes
      have place : strchr x.bytes '@'.toUInt8 = some (k.bytes.take p).length := by
        rw [← bytes, append_assoc, append_assoc, singleton_append]
        exact strchr_first absent
      have behind : x.bytes.drop ((k.bytes.take p).length + 1) = byte :: rest ++ k.bytes.drop e := by
        rw [← bytes, append_assoc, drop_left' (by simp)]
      simp only [unitNameIsTemplate, place]
      rw [behind]
      simpa using ne

variable {n : CString} {found : Found}

theorem completed_plain {k x : CString} (plain : unitNameIsTemplate n = false)
    (complete : completed n k = some x) : unitNameIsTemplate x = false := by
  rw [completed] at complete
  split_ifs at complete with template
  · split at complete
    · rename_i part piece
      obtain ⟨byte, rest, begins, ne⟩ := instance_begins plain piece
      exact replaceInstance_plain begins ne complete
    · cases complete
  · exact some.inj complete ▸ by simpa using template

structure Opened (h : Host U) (found : Found) : Prop where
  contents : h.openNoFollow found.filename = .file found.contents
  last : ∀ k, found.id = some k -> k ∈ found.names
  nameless : found.id = none -> found.names.members = []

theorem openFollow_found {c : Nat} {filename : CString} {names : OrderedSet CString}
    {id : Option CString} (inside : ∀ k, id = some k -> k ∈ names)
    (nameless : id = none -> names.members = []) (run : openFollow h c filename names id = .ok found) :
    Opened h found := by
  induction c generalizing filename names id with
  | zero => cases run
  | succ c ih =>
    rw [openFollow] at run
    generalize fileName (killSlashes filename) = name at run
    have inside' : ∀ k, (if unitNameIsValid name true = true then some name else id) = some k ->
        k ∈ (if unitNameIsValid name true = true then names.put name else names) := by
      intro k here
      by_cases valid : unitNameIsValid name true = true
      · rw [if_pos valid] at here ⊢
        cases here
        simp
      · rw [if_neg valid] at here ⊢
        exact inside k here
    have nameless' : (if unitNameIsValid name true = true then some name else id) = none ->
        (if unitNameIsValid name true = true then names.put name else names).members = [] := by
      intro here
      by_cases valid : unitNameIsValid name true = true
      · simp [valid] at here
      · rw [if_neg valid] at here ⊢
        exact nameless here
    cases entry : h.openNoFollow (killSlashes filename) with
    | file contents =>
      simp only [entry] at run
      cases run
      exact ⟨entry, inside', nameless'⟩
    | fails e =>
      simp only [entry] at run
      cases run
    | link target =>
      simp only [entry] at run
      exact ih inside' nameless' run

theorem findFile_found {path : CString} (run : findFile h path = .ok (some found)) :
    Opened h found := by
  have opened : ∀ {filename}, openFollow h followMax filename .empty none = .ok found ->
      Opened h found :=
    fun run => openFollow_found (by simp) (fun _ => rfl) run
  have searched : ∀ dirs, searchPath h path dirs = .ok (some found) ->
      Opened h found := by
    intro dirs
    induction dirs with
    | nil =>
      intro run
      cases run
    | cons dir rest ih =>
      intro run
      rw [searchPath] at run
      split_ifs at run with present
      · cases outcome : openFollow h followMax (join dir path) .empty none with
        | ok place =>
          simp only [outcome] at run
          cases run
          exact opened outcome
        | error e =>
          simp only [outcome] at run
          split_ifs at run
          exact ih run
      · simp only [if_true] at run
        exact ih run
  unfold findFile at run
  split_ifs at run with absolute
  · cases outcome : openFollow h followMax path .empty none with
    | ok place =>
      simp only [outcome] at run
      cases run
      exact opened outcome
    | error e =>
      simp only [outcome] at run
      split_ifs at run
      cases run
  · exact searched h.unitPath run

theorem lookup_found (here : lookup h n = some found) : Opened h found := by
  unfold lookup at here
  split_ifs at here
  cases direct : findFile h n with
  | error e => simp [direct] at here
  | ok place =>
    cases place with
    | some place =>
      simp only [direct, some.injEq] at here
      exact findFile_found (here ▸ direct)
    | none =>
      simp only [direct] at here
      split at here
      · rename_i k _ _
        cases template : findFile h k with
        | error e => simp [template] at here
        | ok place =>
          simp only [template] at here
          exact findFile_found (here ▸ template)
      · cases here

theorem fragmentAt_found (here : lookup h n = some found) :
    fragmentAt h found.filename =
      match found.contents.result with
      | .ok () => some found.filename
      | .error _ => if found.contents.nullOrEmpty then some found.filename else none := by
  rw [fragmentAt, (lookup_found here).contents]

end

end Systemd.Loading

namespace Systemd.Loading

section

variable {U : Type}

variable {table : NameTable U} {k : CString}

theorem absent_key (free : table.get k = none) : k ∉ table.map Prod.fst := by
  intro mem
  obtain ⟨entry, inside, rfl⟩ := List.mem_map.mp mem
  rw [NameTable.get, Option.map_eq_none_iff, List.find?_eq_none] at free
  exact free entry inside (by simp)

theorem keys_append (nodup : (table.map Prod.fst).Nodup) (free : table.get k = none) (u : U) :
    ((table ++ [(k, u)]).map Prod.fst).Nodup := by
  rw [List.map_append, List.nodup_append]
  refine ⟨nodup, by simp, ?_⟩
  rintro x mem y single rfl
  simp only [List.map_cons, List.map_nil, List.mem_singleton] at single
  exact absent_key free (single ▸ mem)

structure Fresh (l : Loader U) (u : U) (s : CString) : Prop where
  only : ∀ x, l.registry.units.get x = some u -> x = s
  id : l.registry.id u = some s
  path : l.fragmentPath u = none

structure Filled (h : Host U) (asked : List CString) (l : Loader U) (u : U) (i file : CString) :
    Prop where
  names : ∀ x, l.registry.units.get x = some u -> Joins h asked i file x
  id : l.registry.id u = some i
  path : l.fragmentPath u = fragmentAt h file

def Done (h : Host U) (asked : List CString) (l : Loader U) (u : U) : Prop :=
  (∃ s, Loaded h asked s ∧ Refused h s ∧ Fresh l u s) ∨ ∃ i file, Filled h asked l u i file

/-- Each unit but the one that is being loaded is what the files make of any of its names, whatever was
loaded before. -/
structure Canon (h : Host U) (asked : List CString) (claims : U -> CString -> Prop) (busy : Option U)
    (l : Loader U) : Prop where
  held : Held claims l.registry
  idle : ∀ u, l.registry.alive u = true ->
    l.registry.hasJob u = false ∧ l.registry.activeState u = .inactive
  keys : (l.registry.units.map Prod.fst).Nodup
  known : ∀ s u, l.registry.units.get s = some u -> Known h asked s
  loadable : ∀ s u, l.registry.units.get s = some u -> ∃ t part, Loadable s t part
  part : ∀ s u i, l.registry.units.get s = some u -> l.registry.id u = some i ->
    unitNameToInstance i = some (l.registry.instancePart u)
  queued : ∀ u, u ∈ l.loadQueue -> l.registry.loadState u = .stub ->
    ∃ s, l.registry.units.get s = some u
  stub : ∀ s u, l.registry.units.get s = some u -> busy ≠ some u -> l.registry.loadState u = .stub ->
    u ∈ l.loadQueue ∧ Loaded h asked s ∧ Fresh l u s
  done : ∀ s u, l.registry.units.get s = some u -> busy ≠ some u -> l.registry.loadState u ≠ .stub ->
    Done h asked l u
  sole : ∀ n s u, Sole h asked n s -> l.registry.units.get s = some u -> l.registry.units.get n = some u

structure Gains (l l' : Loader U) (u : U) (gained : CString -> Prop) : Prop where
  mine : ∀ x, gained x -> l'.registry.units.get x = some u
  kept : ∀ x v, l.registry.units.get x = some v -> ¬gained x -> l'.registry.units.get x = some v
  only : ∀ x v, l'.registry.units.get x = some v ->
    gained x ∧ v = u ∨ l.registry.units.get x = some v ∧ ¬gained x
  whole : ∀ x y v, l.registry.units.get x = some v -> l.registry.units.get y = some v -> gained x -> gained y
  named : ∃ x, l.registry.units.get x = some u
  id : ∀ x v, l'.registry.units.get x = some v -> l'.registry.id v = l.registry.id v
  instancePart : l'.registry.instancePart = l.registry.instancePart
  loadState : ∀ x v, l'.registry.units.get x = some v -> l'.registry.loadState v = l.registry.loadState v
  stays : ∀ v, l'.registry.loadState v = .stub -> l.registry.loadState v = .stub ∧
    ∀ x, l.registry.units.get x = some v -> ¬gained x
  alive : l'.registry.alive = l.registry.alive
  hasJob : l'.registry.hasJob = l.registry.hasJob
  activeState : l'.registry.activeState = l.registry.activeState
  keys : (l.registry.units.map Prod.fst).Nodup -> (l'.registry.units.map Prod.fst).Nodup
  loadQueue : l'.loadQueue = l.loadQueue
  fragmentPath : l'.fragmentPath = l.fragmentPath

variable {h : Host U} {asked : List CString} {claims : U -> CString -> Prop} {busy : Option U}
  {l l' : Loader U} {u : U}

theorem Done.shrink {v : U} (done : Done h asked l v)
    (names : ∀ x, l'.registry.units.get x = some v -> l.registry.units.get x = some v)
    (id : l'.registry.id v = l.registry.id v) (path : l'.fragmentPath v = l.fragmentPath v) :
    Done h asked l' v := by
  rcases done with ⟨s, loaded, nothing, fresh⟩ | ⟨i, file, filled⟩
  · exact .inl ⟨s, loaded, nothing, fun x here => fresh.only x (names x here), id.trans fresh.id,
      path.trans fresh.path⟩
  · exact .inr ⟨i, file, fun x here => filled.names x (names x here), id.trans filled.id,
      path.trans filled.path⟩

section

variable (canon : Canon h asked claims busy l)
include canon

theorem Canon.gains {gained : CString -> Prop} (gains : Gains l l' u gained)
    (held : Held claims l'.registry) (known : ∀ x, gained x -> Known h asked x)
    (loadable : ∀ x, gained x -> ∃ t part, Loadable x t part)
    (soles : ∀ n x, Sole h asked n x -> gained x -> l'.registry.units.get n = some u) (grows : busy ≠
      some u -> l.registry.loadState u ≠ .stub ∧ ∃ i file, Filled h asked l u i file ∧ ∀ x, gained x ->
      Joins h asked i file x) : Canon h asked claims busy l' where
  held := held
  idle := by
    intro v alive
    rw [gains.alive] at alive
    rw [gains.hasJob, gains.activeState]
    exact canon.idle v alive
  keys := gains.keys canon.keys
  known := by
    intro s v here
    rcases gains.only s v here with ⟨new, -⟩ | ⟨old, -⟩
    · exact known s new
    · exact canon.known s v old
  loadable := by
    intro s v here
    rcases gains.only s v here with ⟨new, -⟩ | ⟨old, -⟩
    · exact loadable s new
    · exact canon.loadable s v old
  part := by
    intro s v i here chosen
    rw [gains.id s v here] at chosen
    rw [gains.instancePart]
    rcases gains.only s v here with ⟨-, rfl⟩ | ⟨old, -⟩
    · obtain ⟨x, mine⟩ := gains.named
      exact canon.part x v i mine chosen
    · exact canon.part s v i old chosen
  queued := by
    intro v waits stub
    rw [gains.loadQueue] at waits
    obtain ⟨before, stays⟩ := gains.stays v stub
    obtain ⟨s, old⟩ := canon.queued v waits before
    exact ⟨s, gains.kept s v old (stays s old)⟩
  stub := by
    intro s v here other stub
    rw [gains.loadState s v here] at stub
    have ne : v ≠ u := by
      rintro rfl
      exact (grows other).1 stub
    rcases gains.only s v here with ⟨-, same⟩ | ⟨old, -⟩
    · exact absurd same ne
    obtain ⟨waits, loaded, fresh⟩ := canon.stub s v old other stub
    refine ⟨by rwa [gains.loadQueue], loaded, fun x there => ?_, ?_, ?_⟩
    · rcases gains.only x v there with ⟨-, same⟩ | ⟨before, -⟩
      · exact absurd same ne
      · exact fresh.only x before
    · rw [gains.id s v here, fresh.id]
    · rw [gains.fragmentPath, fresh.path]
  done := by
    intro s v here other settled
    rw [gains.loadState s v here] at settled
    have path : l'.fragmentPath v = l.fragmentPath v := by rw [gains.fragmentPath]
    by_cases same : v = u
    · subst same
      obtain ⟨-, i, file, filled, fits⟩ := grows other
      refine .inr ⟨i, file, fun x there => ?_, (gains.id s v here).trans filled.id,
        path.trans filled.path⟩
      rcases gains.only x v there with ⟨new, -⟩ | ⟨old, -⟩
      · exact fits x new
      · exact filled.names x old
    · have before : ∀ x, l'.registry.units.get x = some v -> l.registry.units.get x = some v := by
        intro x there
        rcases gains.only x v there with ⟨-, wrong⟩ | ⟨old, -⟩
        · exact absurd wrong same
        · exact old
      exact (canon.done s v (before s here) other settled).shrink before (gains.id s v here) path
  sole := by
    intro n s v sole here
    rcases gains.only s v here with ⟨new, rfl⟩ | ⟨old, stays⟩
    · exact soles n s sole new
    · have first := canon.sole n s v sole old
      exact gains.kept n v first fun new => stays (gains.whole n s v first old new)

theorem Canon.weaken {fewer : U -> CString -> Prop} (claimed : ∀ w s, fewer w s -> claims w s) :
    Canon h asked fewer busy l :=
  { canon with held := ⟨canon.held.1, fun w s given => canon.held.2 w s (claimed w s given)⟩ }

theorem Canon.room (agreeing : Agreeing h asked) (known : Known h asked k)
    (free : l.registry.units.get k = none) : l.registry.units.length < managerMaxNames := by
  obtain ⟨all, short, listed⟩ := agreeing.few
  have entries : ∀ s ∈ l.registry.units.map Prod.fst, s ∈ all := by
    intro s mem
    obtain ⟨entry, inside, rfl⟩ := List.mem_map.mp mem
    have found : ∃ v, l.registry.units.get entry.1 = some v := by
      rw [← Option.isSome_iff_exists, NameTable.get, Option.isSome_map, List.find?_isSome]
      exact ⟨entry, inside, by simp⟩
    obtain ⟨v, here⟩ := found
    exact listed _ (canon.known _ v here)
  have fits : (k :: l.registry.units.map Prod.fst).Subperm all := by
    refine (List.nodup_cons.mpr ⟨absent_key free, canon.keys⟩).subperm fun s mem => ?_
    rcases List.mem_cons.mp mem with rfl | old
    · exact listed s known
    · exact entries s old
  have bound := fits.length_le
  rw [List.length_cons, List.length_map] at bound
  omega

end

end

end Systemd.Loading
