import Mathlib.Data.List.Chain
import Systemd.Shared.Cycles
import Systemd.Shared.Loop

set_option autoImplicit false

namespace Systemd.Search

open Loop Cycles Relation List Function

variable {V : Type}

/-- Depth-first search that keeps its state in the nodes: a node belongs to the current search when
it carries its generation, and is still being searched while it has a marker. -/
structure Mark (V : Type) where
  generation : Nat
  marker : Option V

def Opened (generation : Nat) (mark : Mark V) : Prop :=
  mark.generation = generation ∧ mark.marker ≠ none

def Closed (generation : Nat) (mark : Mark V) : Prop :=
  mark.generation = generation ∧ mark.marker = none

section

variable [DecidableEq V]

-- The error names the node met again and the node it was met from.
def search (next : V -> List V) (generation : Nat) :
    Nat -> (V -> Mark V) -> V -> Option V -> (V -> Mark V) × Except (V × Option V) Unit
  | fuel, marks, v, origin =>
    if (marks v).generation = generation then
      if (marks v).marker = none then (marks, .ok ()) else (marks, .error (v, origin))
    else
      match fuel with
      | 0 => (marks, .ok ())
      | fuel + 1 =>
        let marks := update marks v ⟨generation, some (origin.getD v)⟩
        match forEach (fun marks w => search next generation fuel marks w (some v)) marks (next v) with
        | (marks, .ok ()) => (update marks v { marks v with marker := none }, .ok ())
        | (marks, .error e) => (marks, .error e)

def walk (marks : V -> Mark V) (generation : Nat) (target : V) : Nat -> Option V -> List V
  | 0, _ | _, none => []
  | fuel + 1, some v =>
    if v = target then [v]
    else v :: walk marks generation target fuel
      (if (marks v).generation = generation ∧ (marks v).marker ≠ some v then (marks v).marker else none)

end

def unvisited (generation : Nat) (nodes : List V) (marks : V -> Mark V) : Nat :=
  (nodes.filter fun v => (marks v).generation ≠ generation).length

structure Extends (generation : Nat) (marks marks' : V -> Mark V) : Prop where
  keeps : ∀ v, marks' v = marks v ∨ (marks v).generation ≠ generation ∧ marks' v = ⟨generation, none⟩

namespace Extends

variable {generation : Nat} {marks marks' marks'' : V -> Mark V}

theorem refl (marks : V -> Mark V) : Extends generation marks marks := ⟨fun _ => .inl rfl⟩

theorem visited (step : Extends generation marks marks') {v : V}
    (here : (marks v).generation = generation) : marks' v = marks v := by
  rcases step.keeps v with same | ⟨new, _⟩
  · exact same
  · exact absurd here new

theorem closed (step : Extends generation marks marks') {v : V}
    (done : Closed generation (marks v)) : Closed generation (marks' v) := by
  rwa [step.visited done.1]

theorem trans (first : Extends generation marks marks') (second : Extends generation marks' marks'') :
    Extends generation marks marks'' := by
  refine ⟨fun v => ?_⟩
  rcases first.keeps v with same | ⟨new, closed⟩
  · rw [← same]
    exact second.keeps v
  · exact .inr ⟨new, (second.visited (by rw [closed])).trans closed⟩

theorem unvisited_le (step : Extends generation marks marks') (nodes : List V) :
    unvisited generation nodes marks' ≤ unvisited generation nodes marks := by
  apply List.Sublist.length_le
  apply monotone_filter_right
  intro v new
  simp only [decide_eq_true_eq] at new ⊢
  intro here
  rw [step.visited here] at new
  exact new here

end Extends

def Sound (next : V -> List V) (stale : V -> Prop) (generation : Nat) (marks : V -> Mark V) : Prop :=
  ∀ v, Closed generation (marks v) -> stale v ∨ Acc (fun b a => b ∈ next a ∧ ¬ stale b) v

section

variable [DecidableEq V]

theorem unvisited_open (generation : Nat) (nodes : List V) (marks : V -> Mark V) (v : V)
    (marker : Option V) (mem : v ∈ nodes) (new : (marks v).generation ≠ generation) :
    unvisited generation nodes (update marks v ⟨generation, marker⟩) <
      unvisited generation nodes marks := by
  apply length_filter_lt_of_dropped nodes v mem
  · intro w here
    by_cases same : w = v
    · simpa [same] using new
    · simpa [update_of_ne same] using here
  · simpa using new
  · simp

variable {next : V -> List V} {generation fuel : Nat} {marks marks' : V -> Mark V} {v : V} {origin : Option V}

theorem search_visited (visited : (marks v).generation = generation) :
    search next generation fuel marks v origin =
      if (marks v).marker = none then (marks, .ok ()) else (marks, .error (v, origin)) := by
  unfold search
  simp [visited]

theorem search_stuck (new : (marks v).generation ≠ generation) :
    search next generation 0 marks v origin = (marks, .ok ()) := by
  unfold search
  simp [new]

theorem search_new (new : (marks v).generation ≠ generation) :
    search next generation (fuel + 1) marks v origin =
      match forEach (fun marks w => search next generation fuel marks w (some v))
          (update marks v ⟨generation, some (origin.getD v)⟩) (next v) with
      | (marks, .ok ()) => (update marks v { marks v with marker := none }, .ok ())
      | (marks, .error e) => (marks, .error e) := by
  rw [search]
  simp [new]

theorem search_visited_clear (visited : (marks v).generation = generation)
    (clear : search next generation fuel marks v origin = (marks', .ok ())) : marks = marks' := by
  rw [search_visited visited] at clear
  split at clear
  · exact congrArg Prod.fst clear
  · cases congrArg Prod.snd clear

theorem Extends.close (v : V) (marker : V) (new : (marks v).generation ≠ generation)
    (step : Extends generation (update marks v ⟨generation, some marker⟩) marks') :
    Extends generation marks (update marks' v { marks' v with marker := none }) := by
  have still : marks' v = ⟨generation, some marker⟩ := by
    rw [step.visited] <;> simp
  refine ⟨fun w => ?_⟩
  by_cases same : w = v
  · subst same
    exact .inr ⟨new, by simp [still]⟩
  · have kept := step.keeps w
    rw [update_of_ne same] at kept ⊢
    exact kept

theorem search_extends (clear : search next generation fuel marks v origin = (marks', .ok ())) :
    Extends generation marks marks' := by
  induction fuel generalizing marks marks' v origin with
  | zero =>
    obtain rfl : marks = marks' := by
      by_cases visited : (marks v).generation = generation
      · exact search_visited_clear visited clear
      · rw [search_stuck visited] at clear
        exact congrArg Prod.fst clear
    exact .refl marks
  | succ fuel ih =>
    by_cases visited : (marks v).generation = generation
    · exact search_visited_clear visited clear ▸ .refl marks
    · rw [search_new visited] at clear
      cases loop : forEach (fun marks w => search next generation fuel marks w (some v))
          (update marks v ⟨generation, some (origin.getD v)⟩) (next v) with
      | mk marks2 outcome =>
        have steps := forEach_steps _ (Extends generation) .refl (fun _ _ _ => .trans) (next v)
          (fun _ _ _ _ clear => ih clear) _ _ _ loop
        cases outcome with
        | error e => simp [loop] at clear
        | ok =>
          obtain rfl : update marks2 v { marks2 v with marker := none } = marks' := by
            simpa [loop] using clear
          exact steps.close v _ visited

section

variable {children : List V} {e : V × Option V}

theorem searchEach_extends (clear : forEach (fun marks w => search next generation fuel marks w origin)
      marks children = (marks', .ok ())) : Extends generation marks marks' :=
  forEach_steps _ (Extends generation) .refl (fun _ _ _ => .trans) children
    (fun _ _ _ _ clear => search_extends clear) _ _ _ clear

theorem searchEach_stops (failed : forEach (fun marks w => search next generation fuel marks w origin)
      marks children = (marks', .error e)) :
    ∃ middle, ∃ w ∈ children, Extends generation marks middle ∧
      search next generation fuel middle w origin = (marks', .error e) :=
  forEach_steps _ (Extends generation) .refl (fun _ _ _ => .trans) children
    (fun _ _ _ _ clear => search_extends clear) _ _ _ failed

theorem search_stops (new : (marks v).generation ≠ generation)
    (failed : search next generation (fuel + 1) marks v origin = (marks', .error e)) :
    ∃ middle, ∃ w ∈ next v,
      Extends generation (update marks v ⟨generation, some (origin.getD v)⟩) middle ∧
      search next generation fuel middle w (some v) = (marks', .error e) := by
  rw [search_new new] at failed
  cases loop : forEach (fun marks w => search next generation fuel marks w (some v))
      (update marks v ⟨generation, some (origin.getD v)⟩) (next v) with
  | mk marks2 outcome =>
    cases outcome with
    | ok => simp [loop] at failed
    | error e' =>
      obtain ⟨rfl, rfl⟩ : marks2 = marks' ∧ e' = e := by simpa [loop] using failed
      exact searchEach_stops loop

end

def Touched (generation : Nat) (marks marks' : V -> Mark V) : Prop :=
  ∀ v, marks' v = marks v ∨ (marks' v).generation = generation

omit [DecidableEq V] in
theorem Touched.trans {marks'' : V -> Mark V} (first : Touched generation marks marks')
    (second : Touched generation marks' marks'') : Touched generation marks marks'' := by
  intro v
  rcases second v with same | touched
  · rw [same]
    exact first v
  · exact .inr touched

theorem Touched.update (generation : Nat) (marks : V -> Mark V) (v : V) (marker : Option V) :
    Touched generation marks (update marks v ⟨generation, marker⟩) := by
  intro w
  by_cases same : w = v
  · exact .inr (by simp [same])
  · exact .inl (update_of_ne same _ _)

theorem search_touched (fuel : Nat) (marks : V -> Mark V) (v : V) (origin : Option V) :
    Touched generation marks (search next generation fuel marks v origin).1 := by
  induction fuel generalizing marks v origin with
  | zero =>
    by_cases visited : (marks v).generation = generation
    · rw [search_visited visited]
      split <;> exact fun _ => .inl rfl
    · rw [search_stuck visited]
      exact fun _ => .inl rfl
  | succ fuel ih =>
    by_cases visited : (marks v).generation = generation
    · rw [search_visited visited]
      split <;> exact fun _ => .inl rfl
    · rw [search_new visited]
      have opened := Touched.update generation marks v (some (origin.getD v))
      have steps := forEach_always (fun marks w => search next generation fuel marks w (some v))
        (Touched generation) (fun _ _ => .inl rfl) (fun _ _ _ => .trans) (next v)
        (fun w _ marks => ih marks w (some v))
        (update marks v ⟨generation, some (origin.getD v)⟩)
      cases loop : forEach (fun marks w => search next generation fuel marks w (some v))
          (update marks v ⟨generation, some (origin.getD v)⟩) (next v) with
      | mk marks2 outcome =>
        simp only [loop] at steps ⊢
        cases outcome with
        | error e => exact opened.trans steps
        | ok =>
          have still : (marks2 v).generation = generation := by
            rcases steps v with same | touched
            · rw [same]
              simp
            · exact touched
          refine (opened.trans steps).trans ?_
          simp only [still]
          exact Touched.update generation marks2 v none

variable {stale : V -> Prop} {nodes : List V}

theorem searchEach_clear {children : List V} (inside : ∀ w ∈ children, w ∈ nodes)
    (bound : unvisited generation nodes marks ≤ fuel) (each : ∀ w ∈ nodes, ∀ marks marks', unvisited
      generation nodes marks ≤ fuel -> search next generation fuel marks w origin = (marks', .ok ()) ->
      Sound next stale generation marks -> Sound next stale generation marks' ∧ Closed generation
      (marks' w)) (clear : forEach (fun marks w => search next generation fuel marks w origin) marks
      children = (marks', .ok ())) (sound : Sound next stale generation marks) :
    Sound next stale generation marks' ∧ ∀ w ∈ children, Closed generation (marks' w) := by
  induction children generalizing marks with
  | nil =>
    obtain rfl : marks = marks' := congrArg Prod.fst clear
    exact ⟨sound, by simp⟩
  | cons w rest ih =>
    rw [forEach] at clear
    cases first : search next generation fuel marks w origin with
    | mk marks1 outcome =>
      cases outcome with
      | error e => simp [first] at clear
      | ok =>
        simp only [first] at clear
        have step := search_extends first
        have steps := searchEach_extends clear
        obtain ⟨sound1, done⟩ := each w (inside w (by simp)) marks marks1 bound first sound
        obtain ⟨soundRest, doneRest⟩ := ih (fun x mem => inside x (mem_cons_of_mem _ mem))
          ((step.unvisited_le nodes).trans bound) clear sound1
        refine ⟨soundRest, ?_⟩
        intro x mem
        rcases mem_cons.mp mem with rfl | later
        · exact steps.closed done
        · exact doneRest x later

theorem search_clear (inside : ∀ v ∈ nodes, ∀ w ∈ next v, w ∈ nodes) (mem : v ∈ nodes)
    (bound : unvisited generation nodes marks ≤ fuel)
    (clear : search next generation fuel marks v origin = (marks', .ok ()))
    (sound : Sound next stale generation marks) :
    Sound next stale generation marks' ∧ Closed generation (marks' v) := by
  have settled : ∀ fuel marks marks' v origin, (marks v).generation = generation ->
      search next generation fuel marks v origin = (marks', .ok ()) ->
      Sound next stale generation marks ->
      Sound next stale generation marks' ∧ Closed generation (marks' v) := by
    intro fuel marks marks' v origin visited clear sound
    rw [search_visited visited] at clear
    by_cases done : (marks v).marker = none
    · obtain rfl : marks = marks' := by simpa [done] using clear
      exact ⟨sound, visited, done⟩
    · simp [done] at clear
  induction fuel generalizing marks marks' v origin with
  | zero =>
    have visited : (marks v).generation = generation := by
      by_contra new
      have shrinks := unvisited_open generation nodes marks v none mem new
      omega
    exact settled _ marks marks' v origin visited clear sound
  | succ fuel ih =>
    by_cases visited : (marks v).generation = generation
    · exact settled _ marks marks' v origin visited clear sound
    · have shrinks := unvisited_open generation nodes marks v (some (origin.getD v)) mem visited
      rw [search_new visited] at clear
      revert shrinks clear
      generalize opened : update marks v ⟨generation, some (origin.getD v)⟩ = marks1
      intro clear shrinks
      have here : marks1 v = ⟨generation, some (origin.getD v)⟩ := by simp [← opened]
      have away : ∀ w, w ≠ v -> marks1 w = marks w := fun w ne => by
        simp [← opened, update_of_ne ne]
      have soundOpened : Sound next stale generation marks1 := by
        intro w closed
        by_cases same : w = v
        · simp [same, here, Closed] at closed
        · exact sound w (away w same ▸ closed)
      cases loop : forEach (fun marks w => search next generation fuel marks w (some v)) marks1
          (next v) with
      | mk marks2 outcome =>
        cases outcome with
        | error e => simp [loop] at clear
        | ok =>
          obtain rfl : update marks2 v { marks2 v with marker := none } = marks' := by
            simpa [loop] using clear
          have steps := searchEach_extends loop
          obtain ⟨soundLoop, children⟩ := searchEach_clear (inside v mem) (by omega)
            (fun _ inNodes _ _ bound clear => ih inNodes bound clear) loop soundOpened
          have still : marks2 v = marks1 v := steps.visited (by rw [here])
          refine ⟨?_, by simp [Closed, still, here]⟩
          intro w closed
          by_cases same : w = v
          · subst same
            refine .inr ⟨_, fun x ⟨child, fresh⟩ => ?_⟩
            exact (soundLoop x (children x child)).resolve_left fresh
          · rw [update_of_ne same] at closed
            exact soundLoop w closed

end

structure Trail (next : V -> List V) (generation : Nat) (nodes : List V) (marks : V -> Mark V)
    (trail : List V) : Prop where
  nodup : trail.Nodup
  inside : ∀ v ∈ trail, v ∈ nodes
  opened : ∀ v ∈ nodes, Opened generation (marks v) -> v ∈ trail
  visited : ∀ v ∈ trail, (marks v).generation = generation
  linked : trail.IsChain fun a b => (marks a).marker = some b ∧ a ∈ next b

variable {marks' marks : V -> Mark V}

theorem Trail.extend {next : V -> List V} {generation : Nat} {nodes : List V} {trail : List V}
    (valid : Trail next generation nodes marks trail) (step : Extends generation marks marks') :
    Trail next generation nodes marks' trail where
  nodup := valid.nodup
  inside := valid.inside
  opened := by
    intro v mem opened
    rcases step.keeps v with same | ⟨_, closed⟩
    · exact valid.opened v mem (same ▸ opened)
    · simp [Opened, closed] at opened
  visited := by
    intro v mem
    rw [step.visited (valid.visited v mem)]
    exact valid.visited v mem
  linked := by
    refine valid.linked.imp_of_mem_imp fun {a b} memA _ link => ?_
    rwa [step.visited (valid.visited a memA)]

structure Met (next : V -> List V) (generation : Nat) (nodes : List V) (marks : V -> Mark V)
    (target : V) (origin : Option V) (trail : List V) : Prop where
  valid : Trail next generation nodes marks trail
  head : trail.head? = origin
  mem : target ∈ trail
  back : ∀ o, origin = some o -> target ∈ next o

/-- The way back from a node that is being searched, over markers set in this search. -/
inductive Path (generation : Nat) (nodes : List V) (marks : V -> Mark V) : Option V -> Prop where
  | outside : Path generation nodes marks none
  | start (v : V) : v ∈ nodes -> marks v = ⟨generation, some v⟩ -> Path generation nodes marks (some v)
  | step (v w : V) : v ∈ nodes -> marks v = ⟨generation, some w⟩ -> Path generation nodes marks (some w) ->
      Path generation nodes marks (some v)

theorem Path.keep {generation : Nat} {nodes : List V} {origin : Option V}
    (path : Path generation nodes marks origin)
    (same : ∀ v, (marks v).generation = generation -> marks' v = marks v) :
    Path generation nodes marks' origin := by
  induction path with
  | outside => exact .outside
  | start v mem mark => exact .start v mem ((same v (by rw [mark])).trans mark)
  | step v w mem mark _ ih => exact .step v w mem ((same v (by rw [mark])).trans mark) ih

section

variable [DecidableEq V] {next : V -> List V} {generation fuel : Nat} {nodes trail : List V} {v target : V}
  {origin found : Option V}

theorem Trail.push (valid : Trail next generation nodes marks trail) (mem : v ∈ nodes)
    (new : (marks v).generation ≠ generation) (reached : ∀ o, trail.head? = some o -> v ∈ next o) :
    Trail next generation nodes (update marks v ⟨generation, some (trail.head?.getD v)⟩)
      (v :: trail) := by
  have outside : v ∉ trail := fun mem => new (valid.visited v mem)
  have away : ∀ w, w ≠ v ->
      update marks v ⟨generation, some (trail.head?.getD v)⟩ w = marks w :=
    fun w ne => update_of_ne ne _ _
  refine ⟨nodup_cons.mpr ⟨outside, valid.nodup⟩, ?_, ?_, ?_, ?_⟩
  · intro w inTrail
    rcases mem_cons.mp inTrail with rfl | later
    · exact mem
    · exact valid.inside w later
  · intro w inside opened
    by_cases same : w = v
    · simp [same]
    · exact mem_cons_of_mem _ (valid.opened w inside (away w same ▸ opened))
  · intro w inTrail
    by_cases same : w = v
    · simp [same]
    · rw [away w same]
      exact valid.visited w ((mem_cons.mp inTrail).resolve_left same)
  · refine isChain_cons.mpr ⟨?_, ?_⟩
    · intro o head
      have first : trail.head? = some o := head
      simp [first, reached o first]
    · refine valid.linked.imp_of_mem_imp fun {a b} memA _ link => ?_
      rwa [away a fun same => outside (same ▸ memA)]

-- Induction on the fuel: a child that comes back clear leaves the trail as it is, and the child
-- that fails has put itself on top of it.
theorem search_met (inside : ∀ v ∈ nodes, ∀ w ∈ next v, w ∈ nodes) (mem : v ∈ nodes)
    (valid : Trail next generation nodes marks trail) (reached : ∀ o, trail.head? = some o -> v ∈ next o)
    (failed : search next generation fuel marks v trail.head? = (marks', .error (target, found))) :
    ∃ trail', Met next generation nodes marks' target found trail' := by
  have again : ∀ fuel marks marks' v trail, v ∈ nodes -> Trail next generation nodes marks trail ->
      (∀ o, trail.head? = some o -> v ∈ next o) -> (marks v).generation = generation ->
      search next generation fuel marks v trail.head? = (marks', .error (target, found)) ->
      ∃ trail', Met next generation nodes marks' target found trail' := by
    intro fuel marks marks' v trail mem valid reached visited failed
    rw [search_visited visited] at failed
    by_cases done : (marks v).marker = none
    · simp [done] at failed
    · obtain ⟨rfl, rfl, rfl⟩ : marks = marks' ∧ v = target ∧ trail.head? = found := by
        simpa [done] using failed
      exact ⟨trail, valid, rfl, valid.opened v mem ⟨visited, done⟩, reached⟩
  induction fuel generalizing marks marks' v trail with
  | zero =>
    by_cases visited : (marks v).generation = generation
    · exact again _ marks marks' v trail mem valid reached visited failed
    · rw [search_stuck visited] at failed
      cases congrArg Prod.snd failed
  | succ fuel ih =>
    by_cases visited : (marks v).generation = generation
    · exact again _ marks marks' v trail mem valid reached visited failed
    · have pushed := valid.push mem visited reached
      obtain ⟨middle, child, isChild, step, stopped⟩ := search_stops visited failed
      exact ih (inside v mem child isChild) (pushed.extend step)
        (fun o head => by simpa [← Option.some.inj head] using isChild) stopped

theorem walk_trail (valid : Trail next generation nodes marks trail) (mem : target ∈ trail)
    (bound : trail.length ≤ fuel) :
    ∃ front back, trail = front ++ target :: back ∧
      walk marks generation target fuel trail.head? = front ++ [target] := by
  have nodup := valid.nodup
  have visited := valid.visited
  have linked := valid.linked
  clear valid
  induction trail generalizing fuel with
  | nil => cases mem
  | cons v rest ih =>
    cases fuel with
    | zero => simp at bound
    | succ fuel =>
      by_cases same : v = target
      · exact ⟨[], rest, by simp [same], by simp [walk, same]⟩
      · have later : target ∈ rest := (mem_cons.mp mem).resolve_left (Ne.symm same)
        obtain ⟨w, others, rfl⟩ : ∃ w others, rest = w :: others :=
          exists_cons_of_ne_nil (ne_nil_of_mem later)
        obtain ⟨⟨marker, _⟩, linkedRest⟩ := isChain_cons_cons.mp linked
        have ne : w ≠ v := fun eq => (nodup_cons.mp nodup).1 (by simp [eq])
        obtain ⟨front, back, split, walked⟩ := ih later (by simpa using bound)
          (nodup_cons.mp nodup).2 (fun x h => visited x (mem_cons_of_mem _ h)) linkedRest
        rw [head?_cons] at walked
        refine ⟨v :: front, back, by rw [split]; rfl, ?_⟩
        simp [walk, same, visited v, marker, ne, walked]

theorem walk_target (met : Met next generation nodes marks target found trail)
    (bound : nodes.length ≤ fuel) : target ∈ walk marks generation target fuel found := by
  have short : trail.length ≤ fuel :=
    (met.valid.nodup.subperm met.valid.inside).length_le.trans bound
  obtain ⟨front, _, _, walked⟩ := walk_trail met.valid met.mem short
  rw [← met.head, walked]
  simp

theorem walk_loop (met : Met next generation nodes marks target found trail)
    (bound : nodes.length ≤ fuel) (mem : v ∈ walk marks generation target fuel found) :
    TransGen (Within (· ∈ walk marks generation target fuel found) fun a b => b ∈ next a) v v := by
  have short : trail.length ≤ fuel :=
    (met.valid.nodup.subperm met.valid.inside).length_le.trans bound
  obtain ⟨front, back, split, walked⟩ := walk_trail met.valid met.mem short
  rw [met.head] at walked
  rw [walked] at mem ⊢
  have linked : (front ++ [target]).IsChain fun a b => a ∈ next b := by
    have whole := met.valid.linked
    rw [split, append_cons] at whole
    exact whole.left_of_append.imp fun _ _ link => link.2
  refine isChain_loop (fun a b => b ∈ next a) (front ++ [target]) linked ?_ v mem
  intro first head last final
  obtain rfl : target = last := by simpa using final
  apply met.back first
  rw [← met.head, split]
  cases front <;> simpa using head

theorem Path.walk (path : Path generation nodes marks origin) (target : V) (fuel : Nat) :
    ∀ v ∈ walk marks generation target fuel origin, v ∈ nodes := by
  induction path generalizing fuel with
  | outside => cases fuel <;> simp [Search.walk]
  | start v mem mark =>
    cases fuel with
    | zero => simp [Search.walk]
    | succ fuel => cases fuel <;> simp [Search.walk, mark, mem]
  | step v w mem mark _ ih =>
    cases fuel with
    | zero => simp [Search.walk]
    | succ fuel =>
      intro k inWalk
      rw [Search.walk] at inWalk
      by_cases same : v = target
      · rw [if_pos same, mem_singleton] at inWalk
        exact inWalk ▸ mem
      · rw [if_neg same] at inWalk
        rcases mem_cons.mp inWalk with rfl | later
        · exact mem
        · by_cases loop : w = v
          · cases fuel <;> simp [mark, loop, Search.walk] at later
          · exact ih fuel k (by simpa [mark, loop] using later)

theorem search_path (inside : ∀ v ∈ nodes, ∀ w ∈ next v, w ∈ nodes) (mem : v ∈ nodes)
    (path : Path generation nodes marks origin)
    (failed : search next generation fuel marks v origin = (marks', .error (target, found))) :
    Path generation nodes marks' found := by
  have again : ∀ fuel marks v origin, Path generation nodes marks origin ->
      (marks v).generation = generation ->
      search next generation fuel marks v origin = (marks', .error (target, found)) ->
      Path generation nodes marks' found := by
    intro fuel marks v origin path visited failed
    rw [search_visited visited] at failed
    by_cases done : (marks v).marker = none
    · simp [done] at failed
    · obtain ⟨rfl, _, rfl⟩ : marks = marks' ∧ v = target ∧ origin = found := by
        simpa [done] using failed
      exact path
  induction fuel generalizing marks v origin with
  | zero =>
    by_cases visited : (marks v).generation = generation
    · exact again _ marks v origin path visited failed
    · rw [search_stuck visited] at failed
      cases congrArg Prod.snd failed
  | succ fuel ih =>
    by_cases visited : (marks v).generation = generation
    · exact again _ marks v origin path visited failed
    · have kept : Path generation nodes
          (update marks v ⟨generation, some (origin.getD v)⟩) origin := by
        refine path.keep fun w here => update_of_ne ?_ _ _
        rintro rfl
        exact visited here
      have pushed : Path generation nodes
          (update marks v ⟨generation, some (origin.getD v)⟩) (some v) := by
        cases origin with
        | none => exact .start v mem (update_self ..)
        | some o => exact .step v o mem (update_self ..) kept
      obtain ⟨middle, child, isChild, step, stopped⟩ := search_stops visited failed
      exact ih (inside v mem child isChild) (pushed.keep fun w here => step.visited here) stopped

end

end Systemd.Search
