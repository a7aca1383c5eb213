import Systemd.Loading.Delivered
import Systemd.Loading.Looked

set_option autoImplicit false

namespace Systemd.Loading

open Program List Option

variable {U : Type} [DecidableEq U]

def loadAll (h : Host U) (names : List CString) : Option (Loader U) :=
  names.foldlM (fun l n => Request.take ⟨h, some n, none⟩ l) .empty

def Together (l : Loader U) (x y : CString) : Prop :=
  ∃ u, l.registry.units.get x = some u ∧ l.registry.units.get y = some u

structure Alike (names : List CString) (l l' : Loader U) : Prop where
  partition : ∀ x ∈ names, ∀ y ∈ names, Together l x y ↔ Together l' x y
  id : ∀ x ∈ names, ∀ u v, l.registry.units.get x = some u -> l'.registry.units.get x = some v ->
    l.registry.id u = l'.registry.id v
  path : ∀ x ∈ names, ∀ u v, l.registry.units.get x = some u -> l'.registry.units.get x = some v ->
    l.fragmentPath u = l'.fragmentPath v

def OrderFree (h : Host U) (names : List CString) : Prop :=
  ∀ first second l l', (∀ n, n ∈ first ↔ n ∈ names) -> (∀ n, n ∈ second ↔ n ∈ names) ->
    loadAll h first = some l -> loadAll h second = some l' -> Alike names l l'

section

variable {h : Host U} {asked : List CString} {claims : U -> CString -> Prop} {l l' : Loader U}

structure Complete (h : Host U) (asked : List CString) (names : List CString) (l : Loader U) : Prop where
  done : ∀ s u, l.registry.units.get s = some u -> Done h asked l u
  canon : ∃ claims, Canon h asked claims none l
  known : ∀ n ∈ names, ∀ t part, Loadable n t part -> ∃ u, l.registry.units.get n = some u

omit [DecidableEq U] in
theorem Canon.empty : Canon h asked (fun _ _ => False) none (.empty : Loader U) where
  held := ⟨.empty, fun _ _ => False.elim⟩
  idle := by simp [Loader.empty, Registry.empty]
  keys := by simp [Loader.empty, Registry.empty]
  known := by simp [Loader.empty, Registry.empty, NameTable.get]
  loadable := by simp [Loader.empty, Registry.empty, NameTable.get]
  part := by simp [Loader.empty, Registry.empty, NameTable.get]
  queued := by simp [Loader.empty]
  stub := by simp [Loader.empty, Registry.empty, NameTable.get]
  done := by simp [Loader.empty, Registry.empty, NameTable.get]
  sole := by simp [Loader.empty, Registry.empty, NameTable.get]

variable {names : List CString}

section

variable (agreeing : Agreeing h asked)
include agreeing

theorem Canon.loadAll (inside : ∀ n ∈ names, n ∈ asked) (canon : Canon h asked claims none l)
    (queue : l.loadQueue = [])
    (run : names.foldlM (fun l n => Request.take ⟨h, some n, none⟩ l) l = some l') :
    ∃ more : U -> CString -> Prop, Canon h asked more none l' ∧ l'.loadQueue = [] ∧
      (∀ w s, claims w s -> more w s) ∧
      ∀ n ∈ names, ∀ t part, Loadable n t part -> ∃ w, more w n := by
  induction names generalizing claims l with
  | nil =>
    cases run
    exact ⟨claims, canon, queue, fun _ _ given => given, by simp⟩
  | cons n rest ih =>
    rw [forall_mem_cons] at inside
    rw [foldlM_cons] at run
    obtain ⟨middle, taken, run⟩ := bind_eq_some_iff.mp run
    obtain ⟨⟨r, _⟩, called, rfl⟩ := map_eq_some_iff.mp taken
    obtain ⟨claims', canon', queue', kept, new⟩ := canon.managerLoadUnit agreeing queue inside.1 called
    obtain ⟨more, last, empty, kept', later⟩ := ih inside.2 canon' queue' run
    refine ⟨more, last, empty, fun w s given => kept' w s (kept w s given), ?_⟩
    rw [forall_mem_cons]
    refine ⟨fun t part loadable => ?_, later⟩
    obtain ⟨w, given⟩ := new t part loadable
    exact ⟨w, kept' w n given⟩

theorem loadAll_complete (inside : ∀ n ∈ names, n ∈ asked) (run : loadAll h names = some l) :
    Complete h asked names l := by
  obtain ⟨claims, canon, queue, -, known⟩ := Canon.loadAll agreeing inside Canon.empty rfl run
  refine ⟨fun s u here => canon.done s u here (by simp) fun stub => ?_, ⟨claims, canon⟩, ?_⟩
  · obtain ⟨waits, -⟩ := canon.stub s u here (by simp) stub
    rw [queue] at waits
    cases waits
  · intro n mem t part loadable
    obtain ⟨w, given⟩ := known n mem t part loadable
    obtain ⟨u, -, here⟩ := canon.held.2 w n given
    exact ⟨u, here⟩

omit [DecidableEq U] in
theorem Done.alike {u v : U} {x : CString} (first : Done h asked l u) (second : Done h asked l' v)
    (here : l.registry.units.get x = some u) (here' : l'.registry.units.get x = some v) :
    l.registry.id u = l'.registry.id v ∧ l.fragmentPath u = l'.fragmentPath v := by
  rcases first with ⟨s, loaded, refused, fresh⟩ | ⟨i, file, filled⟩
  · obtain rfl := fresh.only x here
    rcases second with ⟨s', -, -, fresh'⟩ | ⟨i', file', filled'⟩
    · obtain rfl := fresh'.only x here'
      exact ⟨fresh.id.trans fresh'.id.symm, fresh.path.trans fresh'.path.symm⟩
    · exact absurd refused (agreeing.found x i' file' loaded (filled'.names x here'))
  · have filled' := second.filled agreeing here' (filled.names x here)
    exact ⟨filled.id.trans filled'.id.symm, filled.path.trans filled'.path.symm⟩

omit [DecidableEq U] in
theorem Complete.together (complete : Complete h asked names l) (complete' : Complete h asked names l')
    {x y : CString} (first : x ∈ names) (second : y ∈ names) (together : Together l x y) :
    Together l' x y := by
  obtain ⟨u, here, there⟩ := together
  obtain ⟨claims, canon⟩ := complete.canon
  obtain ⟨claims', canon'⟩ := complete'.canon
  obtain ⟨t, part, loadable⟩ := canon.loadable x u here
  obtain ⟨t', part', loadable'⟩ := canon.loadable y u there
  obtain ⟨v, here'⟩ := complete'.known x first t part loadable
  obtain ⟨w, there'⟩ := complete'.known y second t' part' loadable'
  rcases complete.done x u here with ⟨s, -, -, fresh⟩ | ⟨i, file, filled⟩
  · obtain rfl := fresh.only x here
    obtain rfl := fresh.only y there
    exact ⟨v, here', here'⟩
  · have filled' := (complete'.done x v here').filled agreeing here' (filled.names x here)
    have filled'' := (complete'.done y w there').filled agreeing there' (filled.names y there)
    obtain rfl := filled'.unique canon' filled'' here' there'
    exact ⟨v, here', there'⟩

end

end

/-- Where the files and the links agree on what each name stands for, the order of the loads does not
matter. -/
theorem aliases_order_free (h : Host U) (names : List CString) (agreeing : Agreeing h names) :
    OrderFree h names := by
  intro first second l l' same same' run run'
  have complete : ∀ {order : List CString} {l : Loader U}, (∀ n, n ∈ order ↔ n ∈ names) ->
      loadAll h order = some l -> Complete h names names l := by
    intro order l same run
    have done := loadAll_complete agreeing (fun n mem => (same n).mp mem) run
    exact { done with known := fun n mem => done.known n ((same n).mpr mem) }
  have one := complete same run
  have other := complete same' run'
  refine ⟨fun x inside y inside' => ⟨?_, ?_⟩, ?_, ?_⟩
  · exact one.together agreeing other inside inside'
  · exact other.together agreeing one inside inside'
  · exact fun x _ u v here here' => ((one.done x u here).alike agreeing (other.done x v here') here here').1
  · exact fun x _ u v here here' => ((one.done x u here).alike agreeing (other.done x v here') here here').2

theorem treeHost_directives {entries : List (CString × Entry)}
    (plain : ∀ entry ∈ entries, ∀ contents, entry.2 = .file contents -> contents.directives = fun _ => [])
    {path : CString} {contents : Contents}
    (opened : (treeHost entries).openNoFollow path = .file contents) : contents.directives = fun _ => [] := by
  simp only [treeHost] at opened
  split at opened
  · rename_i entry found
    exact plain entry (mem_of_find?_eq_some found) contents opened
  · cases opened

theorem aliased_directives {n : CString} {found : Found} (here : lookup aliased n = some found) :
    found.contents.directives = fun _ => [] := by
  refine treeHost_directives ?_ (lookup_found here).contents
  simp [plainFile, linkTo]

theorem aliased_names : (lookup aliased (.ofString "a.service")).map (fun found =>
      (found.names.members, found.filename, found.id)) =
        some ([.ofString "a.service"], .ofString "/etc/a.service", some (.ofString "a.service")) ∧
    (lookup aliased (.ofString "x.service")).map (fun found =>
      (found.names.members, found.filename, found.id)) =
        some ([.ofString "x.service", .ofString "a.service"], .ofString "/etc/a.service",
          some (.ofString "a.service")) := by
  decide

theorem aliased_found {n : CString} (mem : n ∈ [CString.ofString "a.service", .ofString "x.service"]) :
    ∃ found front, lookup aliased n = some found ∧ found.filename = .ofString "/etc/a.service" ∧
      idOf n found = .ofString "a.service" ∧ (front = [] ∨ front = [n]) ∧
        found.names.members = front ++ [.ofString "a.service"] := by
  have last : ∀ {found : Found}, found.id = some (.ofString "a.service") ->
      idOf n found = .ofString "a.service" := by
    intro found id
    have complete : completed n (.ofString "a.service") = some (.ofString "a.service") :=
      if_neg (by decide)
    simp [idOf, id, complete]
  obtain ⟨first, second⟩ := aliased_names
  simp only [mem_cons, not_mem_nil, or_false] at mem
  rcases mem with rfl | rfl
  · obtain ⟨found, here, facts⟩ := map_eq_some_iff.mp first
    simp only [Prod.mk.injEq] at facts
    exact ⟨found, [], here, facts.2.1, last facts.2.2, .inl rfl, facts.1⟩
  · obtain ⟨found, here, facts⟩ := map_eq_some_iff.mp second
    simp only [Prod.mk.injEq] at facts
    exact ⟨found, [.ofString "x.service"], here, facts.2.1, last facts.2.2, .inr rfl, facts.1⟩

theorem aliased_agreeing : Agreeing aliased [.ofString "a.service", .ofString "x.service"] := by
  have inside : ∀ n, Loaded aliased [.ofString "a.service", .ofString "x.service"] n ->
      n ∈ [CString.ofString "a.service", .ofString "x.service"] := by
    intro n loaded
    cases loaded with
    | asked _ mem => exact mem
    | parsed n found part directive _ _ here _ listed _ _ =>
      rw [aliased_directives here] at listed
      cases listed
    | added l u m i part directive _ _ _ _ _ listed _ _ => cases listed
  have kinds : ∀ n ∈ [CString.ofString "a.service", .ofString "x.service"],
      unitNameToType n = some .service ∧ unitNameToInstance n = some none ∧ unitNameIsTemplate n = false := by
    decide
  have own : ∀ n ∈ [CString.ofString "a.service", .ofString "x.service"], ∀ m, completed m n = some n :=
    fun n mem m => if_neg (by simp [(kinds n mem).2.2])
  have fitting : ∀ n ∈ [CString.ofString "a.service", .ofString "x.service"],
      Fitting n (.ofString "a.service") := by
    intro n mem
    obtain ⟨kind, piece, -⟩ := kinds n mem
    exact ⟨_, .service, none, none, own _ (by simp) n,
      ⟨by decide, by decide, by decide, by decide, by simp⟩, kind, rfl, piece, rfl⟩
  have joins : ∀ {i file x}, Joins aliased [.ofString "a.service", .ofString "x.service"] i file x ->
      i = .ofString "a.service" ∧ file = .ofString "/etc/a.service" := by
    rintro i file x ⟨n, found, loaded, -, here, rfl, rfl, -⟩
    obtain ⟨found', front, here', path, id, -⟩ := aliased_found (inside n loaded)
    rw [here] at here'
    cases here'
    exact ⟨id, path⟩
  refine ⟨fun n found loaded here => ⟨?_, ?_⟩, ?_, ?_, ?_, fun _ => rfl, rfl, ?_⟩
  · obtain ⟨found', front, here', -, -, same, names⟩ := aliased_found (inside n loaded)
    rw [here] at here'
    cases here'
    refine ⟨front, _, names, fun k mem => ?_, .shared _ fun k mem => ?_⟩
    · rcases same with rfl | rfl
      · cases mem
      · exact mem_singleton.mp mem ▸ own n (inside n loaded) n
    · obtain rfl := mem_singleton.mp mem
      exact ⟨fitting n (inside n loaded), by decide⟩
  · intro directive listed
    rw [aliased_directives here] at listed
    cases listed
  · intro x i file i' file' first second
    obtain ⟨rfl, rfl⟩ := joins first
    obtain ⟨rfl, rfl⟩ := joins second
    exact ⟨rfl, rfl⟩
  · intro x _ _ loaded _ refused
    obtain ⟨found, front, here, -, -, same, names⟩ := aliased_found (inside x loaded)
    obtain ⟨k, mem, foreign, misfit⟩ := refused found here
    rw [OrderedSet.mem_def, names, mem_append, mem_singleton] at mem
    rcases mem with inFront | rfl
    · rcases same with rfl | rfl
      · cases inFront
      · exact foreign (mem_singleton.mp inFront ▸ own x (inside x loaded) x)
    · exact misfit (fitting x (inside x loaded))
  · intro l u directive listed
    cases listed
  · refine ⟨[.ofString "a.service", .ofString "x.service"], by simp [managerMaxNames], fun x known => ?_⟩
    rcases known with loaded | ⟨n, loaded, found, here, ⟨k, mem, complete⟩ | ⟨words, listed, -⟩⟩
    · exact inside x loaded
    rotate_left
    · rw [aliased_directives here] at listed
      cases listed
    obtain ⟨found', front, here', -, -, same, names⟩ := aliased_found (inside n loaded)
    rw [here] at here'
    cases here'
    have listed : k ∈ [CString.ofString "a.service", .ofString "x.service"] := by
      rw [OrderedSet.mem_def, names, mem_append, mem_singleton] at mem
      rcases mem with inFront | rfl
      · rcases same with rfl | rfl
        · cases inFront
        · exact mem_singleton.mp inFront ▸ inside n loaded
      · simp
    rw [own k listed, some.injEq] at complete
    exact complete ▸ listed

theorem aliases_order_free_aliased : OrderFree aliased [.ofString "a.service", .ofString "x.service"] :=
  aliases_order_free aliased _ aliased_agreeing

def instanced : Host (Fin 4) :=
  treeHost [(.ofString "/etc/a@.service", linkTo "b@.service"), (.ofString "/etc/b@.service", plainFile)]

theorem aliases_order_dependent : ¬OrderFree instanced [.ofString "a@1.service", .ofString "b@1.service"] := by
  intro free
  have runs : ((loadAll instanced [.ofString "a@1.service", .ofString "b@1.service"]).bind fun l =>
      (loadAll instanced [.ofString "b@1.service", .ofString "a@1.service"]).map fun l' =>
        (l.registry.units.get (.ofString "a@1.service"), l.registry.units.get (.ofString "b@1.service"),
          l'.registry.units.get (.ofString "a@1.service"),
          l'.registry.units.get (.ofString "b@1.service"))) = some (some 0, some 0, some 1, some 0) := by
    decide +kernel
  obtain ⟨l, first, rest⟩ := bind_eq_some_iff.mp runs
  obtain ⟨l', second, entries⟩ := map_eq_some_iff.mp rest
  simp only [Prod.mk.injEq] at entries
  obtain ⟨one, two, three, four⟩ := entries
  have alike := free _ _ l l' (fun _ => Iff.rfl) (by simp [or_comm]) first second
  obtain ⟨u, here, there⟩ := (alike.partition _ (by simp) _ (by simp)).mp ⟨0, one, two⟩
  rw [three] at here
  rw [four] at there
  cases here
  cases there

end Systemd.Loading
