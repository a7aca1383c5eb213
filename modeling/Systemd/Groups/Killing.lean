import Mathlib.Data.Finset.SDiff
import Mathlib.Data.Finset.Card
import Mathlib.Data.List.Count
import Mathlib.Data.List.Nodup
import Mathlib.Data.List.Pairwise
import Mathlib.Data.List.Flatten

set_option autoImplicit false

namespace Systemd.Groups

open List Option

-- cg_read_pid takes no 0 for a process.
abbrev Pid := { pid : Nat // 0 < pid }

inductive KillError where
  | einval
  | eperm
  | esrch
  deriving DecidableEq

def KillError.errno : KillError -> Int
  | .einval => 22
  | .eperm => 1
  | .esrch => 3

structure Kernel where
  self : Pid
  kill : Pid -> Except KillError Unit

structure Call where
  sigcont : Bool
  ignoreSelf : Bool
  rem : Bool

/-- One enumeration of the processes of a group: the error of cg_enumerate_processes, or the processes
and what cg_read_pid returns behind them, 0 or an error. -/
inductive Enumeration where
  | failed (r : Int)
  | listed (pids : List Pid) (r : Int)

def Enumeration.pids : Enumeration -> List Pid
  | .failed _ => []
  | .listed pids _ => pids

def Enumeration.Succeeds : Enumeration -> Prop
  | .failed _ => False
  | .listed _ r => ¬r < 0

/-- What the kernel lists when it is asked for the processes of a group for the first time, the second
time and so on. -/
abbrev Lists := Nat -> Enumeration

mutual

/-- A control group: its processes, the groups in it or why they cannot be enumerated, and what
cg_rmdir returns for it. -/
inductive Group where
  | unreadable (lists : Lists) (r : Int)
  | node (lists : Lists) (below : Below) (removal : Int)

/-- The groups that cg_read_subgroup finds, and what it returns behind the last of them. -/
inductive Below where
  | done (r : Int)
  | next (group : Group) (rest : Below)

end

inductive Event where
  | signal (pid : Pid)
  | cont (pid : Pid)
  deriving DecidableEq

structure Shots where
  ret : Int
  events : List Event

structure Visit where
  lists : Lists
  rounds : Nat
  events : List Event

structure Outcome where
  seen : List Pid
  ret : Int
  visits : List Visit

def Outcome.events (o : Outcome) : List Event :=
  o.visits.flatMap Visit.events

def enoent : Int := 2
def ebusy : Int := 16

section

variable (k : Kernel) (c : Call)

def strike (s : Shots) (pid : Pid) : Shots :=
  let sent := s.events ++ [.signal pid]
  match k.kill pid with
  | .error e => { ret := if 0 ≤ s.ret ∧ e ≠ .esrch then -e.errno else s.ret, events := sent }
  | .ok () =>
    if s.ret = 0 then
      { ret := 1, events := if c.sigcont then sent ++ [.cont pid] else sent }
    else
      { s with events := sent }

def Skips (seen : List Pid) (pid : Pid) : Prop :=
  (pid = k.self ∧ c.ignoreSelf = true) ∨ pid ∈ seen

instance (seen : List Pid) (pid : Pid) : Decidable (Skips k c seen pid) :=
  inferInstanceAs (Decidable (_ ∨ _))

-- The loop over one list of processes; the flag is done.
def killPids : List Pid -> List Pid -> Shots -> Bool -> List Pid × Shots × Bool
  | [], seen, s, done => (seen, s, done)
  | pid :: rest, seen, s, done =>
    if Skips k c seen pid then
      killPids rest seen s done
    else
      killPids rest (seen ++ [pid]) (strike k c s pid) false

def cgKillLoop (lists : Lists) : Nat -> Nat -> List Pid -> Shots -> Option (List Pid × Shots × Nat)
  | 0, _, _, _ => none
  | fuel + 1, i, seen, s =>
    match lists i with
    | .failed r =>
      some (seen, { s with ret := if 0 ≤ s.ret ∧ r ≠ -enoent then r else s.ret }, i + 1)
    | .listed pids r =>
      let (seen, s, done) := killPids k c pids seen s true
      if r < 0 then
        some (seen, { s with ret := if 0 ≤ s.ret then r else s.ret }, i + 1)
      else if done then
        some (seen, s, i + 1)
      else
        cgKillLoop lists fuel (i + 1) seen s

def cgKill (fuel : Nat) (lists : Lists) (seen : List Pid) : Option Outcome :=
  (cgKillLoop k c lists fuel 0 seen ⟨0, []⟩).map fun (seen, s, rounds) =>
    ⟨seen, s.ret, [⟨lists, rounds, s.events⟩]⟩

mutual

def cgKillRecursive (fuel : Nat) : Group -> List Pid -> Option Outcome
  | .unreadable lists r, seen => do
    let o ← cgKill k c fuel lists seen
    some { o with ret := if 0 ≤ o.ret ∧ r ≠ -enoent then r else o.ret }
  | .node lists below removal, seen => do
    let o ← cgKill k c fuel lists seen
    let o ← killBelow fuel below o
    some { o with
      ret := if c.rem ∧ removal < 0 ∧ 0 ≤ o.ret ∧ removal ≠ -enoent ∧ removal ≠ -ebusy then removal else o.ret }

def killBelow (fuel : Nat) : Below -> Outcome -> Option Outcome
  | .done r, o => some { o with ret := if r < 0 ∧ 0 ≤ o.ret then r else o.ret }
  | .next group rest, o => do
    let p ← cgKillRecursive fuel group o.seen
    killBelow fuel rest ⟨p.seen, if p.ret ≠ 0 ∧ 0 ≤ o.ret then p.ret else o.ret, o.visits ++ p.visits⟩

end

def fresh : List Pid -> List Pid -> List Pid
  | [], _ => []
  | pid :: rest, seen => if Skips k c seen pid then fresh rest seen else pid :: fresh rest (seen ++ [pid])

def newcomers (lists : Lists) : Nat -> Nat -> List Pid -> List Pid
  | 0, _, _ => []
  | fuel + 1, i, seen =>
    match lists i with
    | .failed _ => []
    | .listed pids r =>
      let new := fresh k c pids seen
      new ++ if r < 0 ∨ new = [] then [] else newcomers lists fuel (i + 1) (seen ++ new)

def appearing (fuel : Nat) : List Lists -> List Pid -> List (List Pid)
  | [], _ => []
  | lists :: rest, seen =>
    let new := newcomers k c lists fuel 0 seen
    new :: appearing fuel rest (seen ++ new)

end

mutual

def Group.groups : Group -> List Lists
  | .unreadable lists _ => [lists]
  | .node lists below _ => lists :: below.groups

def Below.groups : Below -> List Lists
  | .done _ => []
  | .next group rest => group.groups ++ rest.groups

end

inductive Leads (k : Kernel) (pid : Pid) : List Pid -> Prop where
  | here (rest : List Pid) : k.kill pid = .ok () -> Leads k pid (pid :: rest)
  | behind {other : Pid} {rest : List Pid} : k.kill other = .error .esrch -> Leads k pid rest ->
      Leads k pid (other :: rest)

structure Reaches (k : Kernel) (c : Call) (s : List Pid) (g : Group) (o : Outcome) : Prop where
  visited : o.visits.map Visit.lists = g.groups
  once : ∀ visit ∈ o.visits, ∀ i < visit.rounds, ∀ pid ∈ (visit.lists i).pids, pid ∉ s -> pid ≠ k.self ->
    o.events.count (.signal pid) = 1
  continued : c.sigcont = true -> ∀ pid, .signal pid ∈ o.events -> pid ≠ k.self -> k.kill pid = .ok () ->
    [.signal pid, .cont pid].Sublist o.events
  last : ∀ visit ∈ o.visits, 0 < visit.rounds ∧
    ((∀ i < visit.rounds, (visit.lists i).Succeeds) -> ∀ pid ∈ (visit.lists (visit.rounds - 1)).pids,
      pid ∉ s -> pid ≠ k.self -> .signal pid ∈ o.events)

section

variable {k : Kernel} {c : Call}

theorem killPids_fresh (pids seen : List Pid) (s : Shots) (done : Bool) :
    killPids k c pids seen s done = (seen ++ fresh k c pids seen,
      (fresh k c pids seen).foldl (strike k c) s, done && decide (fresh k c pids seen = [])) := by
  induction pids generalizing seen s done with
  | nil => simp [killPids, fresh]
  | cons pid rest ih =>
    rw [killPids, fresh]
    split
    next => exact ih seen s done
    next => simp [ih]

theorem fresh_new (pids seen : List Pid) :
    (fresh k c pids seen).Nodup ∧ (∀ pid ∈ fresh k c pids seen, pid ∉ seen ∧ pid ∈ pids) ∧
      ∀ pid ∈ pids, pid ≠ k.self -> pid ∈ seen ∨ pid ∈ fresh k c pids seen := by
  induction pids generalizing seen with
  | nil => simp [fresh]
  | cons pid rest ih =>
    rw [fresh]
    split
    next skips =>
      obtain ⟨nodup, each, all⟩ := ih seen
      refine ⟨nodup, fun other mem => ?_, fun other mem apart => ?_⟩
      · exact ⟨(each other mem).1, mem_cons_of_mem _ (each other mem).2⟩
      · rcases mem_cons.mp mem with rfl | later
        · exact .inl (skips.resolve_left fun own => apart own.1)
        · exact all other later apart
    next new =>
      obtain ⟨nodup, each, all⟩ := ih (seen ++ [pid])
      refine ⟨nodup_cons.mpr ⟨fun mem => ?_, nodup⟩, fun other mem => ?_, fun other mem apart => ?_⟩
      · exact (each pid mem).1 (by simp)
      · rcases mem_cons.mp mem with rfl | later
        · exact ⟨fun old => new (.inr old), by simp⟩
        · obtain ⟨unseen, listed⟩ := each other later
          exact ⟨fun old => unseen (by simp [old]), mem_cons_of_mem _ listed⟩
      · rcases mem_cons.mp mem with rfl | later
        · exact .inr (by simp)
        · have known := all other later apart
          simp only [mem_append, mem_cons] at known ⊢
          tauto

-- What one call of cg_kill leaves behind when it starts with these processes seen.
structure Emptied (k : Kernel) (c : Call) (fuel : Nat) (lists : Lists) (i : Nat) (seen : List Pid) (s : Shots)
    (seen' : List Pid) (s' : Shots) (rounds : Nat) : Prop where
  seen_eq : seen' = seen ++ newcomers k c lists fuel i seen
  events : s'.events = ((newcomers k c lists fuel i seen).foldl (strike k c) s).events
  later : i < rounds
  known : ∀ j, i ≤ j -> j < rounds -> ∀ pid ∈ (lists j).pids, pid ≠ k.self -> pid ∈ seen'

variable {fuel : Nat} {seen seen' : List Pid} {visits : List Visit} {gs : List Lists}

theorem cgKillLoop_emptied {lists : Lists} {i : Nat} {s s' : Shots} {rounds : Nat}
    (ran : cgKillLoop k c lists fuel i seen s = some (seen', s', rounds)) :
    Emptied k c fuel lists i seen s seen' s' rounds := by
  induction fuel generalizing i seen s with
  | zero => cases ran
  | succ fuel ih =>
    rw [cgKillLoop] at ran
    cases here : lists i with
    | failed r =>
      simp only [here, some.injEq, Prod.mk.injEq] at ran
      obtain ⟨rfl, rfl, rfl⟩ := ran
      refine ⟨by simp [newcomers, here], by simp [newcomers, here], Nat.lt_succ_self i, fun j least most => ?_⟩
      obtain rfl : j = i := by omega
      simp [here, Enumeration.pids]
    | listed pids r =>
      obtain ⟨-, -, all⟩ := fresh_new (k := k) (c := c) pids seen
      have only : ∀ {seen' : List Pid}, seen' = seen ++ fresh k c pids seen -> ∀ j, i ≤ j -> j < i + 1 ->
          ∀ pid ∈ (lists j).pids, pid ≠ k.self -> pid ∈ seen' := by
        intro seen' same j least most pid mem apart
        obtain rfl : j = i := by omega
        rw [here] at mem
        rw [same, mem_append]
        exact all pid mem apart
      simp only [here, killPids_fresh, Bool.true_and, decide_eq_true_eq] at ran
      have step : newcomers k c lists (fuel + 1) i seen = fresh k c pids seen ++
          if r < 0 ∨ fresh k c pids seen = [] then []
          else newcomers k c lists fuel (i + 1) (seen ++ fresh k c pids seen) := by
        rw [newcomers, here]
      split at ran
      next bad =>
        rw [if_pos (.inl bad), append_nil] at step
        simp only [some.injEq, Prod.mk.injEq] at ran
        obtain ⟨rfl, rfl, rfl⟩ := ran
        exact ⟨by rw [step], by rw [step], Nat.lt_succ_self i, only rfl⟩
      next good =>
        split at ran
        next nobody =>
          rw [if_pos (.inr nobody), append_nil] at step
          simp only [some.injEq, Prod.mk.injEq] at ran
          obtain ⟨rfl, rfl, rfl⟩ := ran
          exact ⟨by rw [step], by rw [step], Nat.lt_succ_self i, only rfl⟩
        next more =>
          rw [if_neg (not_or.mpr ⟨good, more⟩)] at step
          obtain ⟨seenEq, events, later, known⟩ := ih ran
          refine ⟨by rw [seenEq, step, append_assoc], by rw [events, step, foldl_append],
            by omega, fun j least most pid mem apart => ?_⟩
          rcases Nat.lt_or_eq_of_le least with beyond | rfl
          · exact known j beyond most pid mem apart
          · rw [seenEq]
            exact mem_append_left _ (only rfl i le_rfl (Nat.lt_succ_self i) pid mem apart)

theorem newcomers_new (lists : Lists) (fuel i : Nat) (seen : List Pid) :
    (newcomers k c lists fuel i seen).Nodup ∧ ∀ pid ∈ newcomers k c lists fuel i seen, pid ∉ seen := by
  induction fuel generalizing i seen with
  | zero => simp [newcomers]
  | succ fuel ih =>
    rw [newcomers]
    cases lists i with
    | failed r => simp
    | listed pids r =>
      obtain ⟨nodup, each, -⟩ := fresh_new (k := k) (c := c) pids seen
      dsimp only
      split
      next => simpa using ⟨nodup, fun pid pos mem => (each ⟨pid, pos⟩ mem).1⟩
      next =>
        obtain ⟨after, others⟩ := ih (i + 1) (seen ++ fresh k c pids seen)
        refine ⟨nodup_append.mpr ⟨nodup, after, ?_⟩, fun pid mem => ?_⟩
        · rintro pid mem other behind rfl
          exact others pid behind (by simp [mem])
        · rcases mem_append.mp mem with mem | mem
          · exact (each pid mem).1
          · exact fun old => others pid mem (by simp [old])

theorem appearing_new (fuel : Nat) (gs : List Lists) (seen : List Pid) :
    (appearing k c fuel gs seen).flatten.Nodup ∧
      ∀ pid ∈ (appearing k c fuel gs seen).flatten, pid ∉ seen := by
  induction gs generalizing seen with
  | nil => simp [appearing]
  | cons lists rest ih =>
    obtain ⟨nodup, each⟩ := newcomers_new (k := k) (c := c) lists fuel 0 seen
    obtain ⟨after, others⟩ := ih (seen ++ newcomers k c lists fuel 0 seen)
    rw [appearing, flatten_cons]
    refine ⟨nodup_append.mpr ⟨nodup, after, ?_⟩, fun pid mem => ?_⟩
    · rintro pid mem other behind rfl
      exact others pid behind (by simp [mem])
    · rcases mem_append.mp mem with mem | mem
      · exact each pid mem
      · exact fun old => others pid mem (by simp [old])

variable (news : List Pid) (s : Shots)

theorem strike_cont (other pid : Pid) :
    .cont pid ∈ (strike k c s other).events ↔ .cont pid ∈ s.events ∨
      (s.ret = 0 ∧ c.sigcont = true ∧ pid = other ∧ k.kill other = .ok ()) := by
  rw [strike]
  cases answer : k.kill other with
  | error e => simp
  | ok done =>
    by_cases first : s.ret = 0 <;> by_cases sigcont : c.sigcont = true <;> simp [first, sigcont]

theorem strike_ret (other : Pid) :
    (strike k c s other).ret = 0 ↔ s.ret = 0 ∧ k.kill other = .error .esrch := by
  rw [strike]
  cases k.kill other with
  | error e =>
    cases e <;> by_cases pos : 0 ≤ s.ret <;> simp [pos, KillError.errno] <;> omega
  | ok done =>
    by_cases first : s.ret = 0 <;> simp [first]

theorem foldl_cont (pid : Pid) :
    .cont pid ∈ (news.foldl (strike k c) s).events ↔ .cont pid ∈ s.events ∨
      (s.ret = 0 ∧ c.sigcont = true ∧ Leads k pid news) := by
  induction news generalizing s with
  | nil =>
    have nobody : ¬Leads k pid [] := fun leads => nomatch leads
    simp [nobody]
  | cons other rest ih =>
    have split : Leads k pid (other :: rest) ↔ (pid = other ∧ k.kill other = .ok ()) ∨
        (k.kill other = .error .esrch ∧ Leads k pid rest) := by
      constructor
      · intro leads
        cases leads with
        | here _ answer => exact .inl ⟨rfl, answer⟩
        | behind gone leads => exact .inr ⟨gone, leads⟩
      · rintro (⟨rfl, answer⟩ | ⟨gone, leads⟩)
        · exact .here rest answer
        · exact .behind gone leads
    rw [foldl_cons, ih, strike_cont, strike_ret, split]
    tauto

theorem foldl_count (pid : Pid) :
    (news.foldl (strike k c) s).events.count (.signal pid) = s.events.count (.signal pid) + news.count pid := by
  induction news generalizing s with
  | nil => rfl
  | cons other rest ih =>
    have here : (strike k c s other).events.count (.signal pid) =
        s.events.count (.signal pid) + if other = pid then 1 else 0 := by
      rw [strike]
      cases k.kill other with
      | error e => simp [count_cons, count_append]
      | ok done =>
        by_cases first : s.ret = 0 <;> by_cases sigcont : c.sigcont = true <;>
          simp [first, sigcont, count_cons, count_append]
    rw [foldl_cons, ih, here, count_cons]
    simp only [beq_iff_eq]
    omega

theorem foldl_sublist
    (before : ∀ pid, .cont pid ∈ s.events -> [.signal pid, .cont pid].Sublist s.events) :
    ∀ pid, .cont pid ∈ (news.foldl (strike k c) s).events ->
      [.signal pid, .cont pid].Sublist (news.foldl (strike k c) s).events := by
  induction news generalizing s with
  | nil => exact before
  | cons other rest ih =>
    refine ih (strike k c s other) fun pid mem => ?_
    have longer : ∃ more, (strike k c s other).events = s.events ++ more := by
      rw [strike]
      cases k.kill other with
      | error e => exact ⟨_, rfl⟩
      | ok done =>
        by_cases first : s.ret = 0 <;> by_cases sigcont : c.sigcont = true <;> simp [first, sigcont]
    rcases (strike_cont s other pid).mp mem with old | ⟨first, sigcont, rfl, answer⟩
    · obtain ⟨more, events⟩ := longer
      rw [events]
      exact (before pid old).trans (sublist_append_left _ _)
    · have events : (strike k c s pid).events = s.events ++ [.signal pid, .cont pid] := by
        simp [strike, answer, first, sigcont]
      rw [events]
      exact sublist_append_right _ _

variable (k c) in
def killAll (fuel : Nat) : List Lists -> List Pid -> Option (List Visit × List Pid)
  | [], seen => some ([], seen)
  | lists :: rest, seen => do
    let o ← cgKill k c fuel lists seen
    let (visits, seen) ← killAll fuel rest o.seen
    some (o.visits ++ visits, seen)

theorem killAll_append (fuel : Nat) (first second : List Lists) (seen : List Pid) :
    killAll k c fuel (first ++ second) seen = (killAll k c fuel first seen).bind fun r =>
      (killAll k c fuel second r.2).map fun q => (r.1 ++ q.1, q.2) := by
  induction first generalizing seen with
  | nil => simp [killAll]
  | cons lists rest ih =>
    simp only [cons_append, killAll, ih]
    cases cgKill k c fuel lists seen with
    | none => rfl
    | some o =>
      cases first : killAll k c fuel rest o.seen with
      | none => simp [first]
      | some r =>
        cases second : killAll k c fuel second r.2 <;> simp [first, second]

mutual

theorem cgKillRecursive_all (fuel : Nat) : ∀ (g : Group) (seen : List Pid),
    (cgKillRecursive k c fuel g seen).map (fun o => (o.visits, o.seen)) = killAll k c fuel g.groups seen
  | .unreadable lists r, seen => by
    rw [cgKillRecursive, Group.groups, killAll]
    cases cgKill k c fuel lists seen <;> simp [killAll]
  | .node lists below removal, seen => by
    rw [cgKillRecursive, Group.groups, killAll]
    cases cgKill k c fuel lists seen with
    | none => rfl
    | some o =>
      have later := killBelow_all fuel below o
      cases ran : killBelow k c fuel below o <;> cases all : killAll k c fuel below.groups o.seen <;>
        simp_all

theorem killBelow_all (fuel : Nat) : ∀ (below : Below) (o : Outcome),
    (killBelow k c fuel below o).map (fun p => (p.visits, p.seen)) =
      (killAll k c fuel below.groups o.seen).map fun r => (o.visits ++ r.1, r.2)
  | .done r, o => by simp [killBelow, Below.groups, killAll]
  | .next group rest, o => by
    have here := cgKillRecursive_all fuel group o.seen
    rw [killBelow, Below.groups, killAll_append, ← here]
    cases cgKillRecursive k c fuel group o.seen with
    | none => rfl
    | some p =>
      have later := killBelow_all fuel rest
        ⟨p.seen, if p.ret ≠ 0 ∧ 0 ≤ o.ret then p.ret else o.ret, o.visits ++ p.visits⟩
      dsimp only [bind_eq_bind, bind_some, map_some] at later ⊢
      rw [later]
      cases killAll k c fuel rest.groups p.seen <;> simp

end

structure Told (k : Kernel) (c : Call) (fuel : Nat) (gs : List Lists) (seen : List Pid) (visits : List Visit)
    (seen' : List Pid) : Prop where
  visited : visits.map Visit.lists = gs
  seen_eq : seen' = seen ++ (appearing k c fuel gs seen).flatten
  events : visits.map Visit.events =
    (appearing k c fuel gs seen).map fun news => (news.foldl (strike k c) ⟨0, []⟩).events
  known : ∀ visit ∈ visits, 0 < visit.rounds ∧
    ∀ i < visit.rounds, ∀ pid ∈ (visit.lists i).pids, pid ≠ k.self -> pid ∈ seen'

theorem killAll_told (ran : killAll k c fuel gs seen = some (visits, seen')) :
    Told k c fuel gs seen visits seen' := by
  induction gs generalizing seen visits with
  | nil =>
    simp only [killAll, some.injEq, Prod.mk.injEq] at ran
    obtain ⟨rfl, rfl⟩ := ran
    exact ⟨rfl, by simp [appearing], rfl, by simp⟩
  | cons lists rest ih =>
    rw [killAll, cgKill] at ran
    cases loop : cgKillLoop k c lists fuel 0 seen ⟨0, []⟩ with
    | none => simp [loop] at ran
    | some r =>
      obtain ⟨middle, s, rounds⟩ := r
      obtain ⟨seenEq, events, later, known⟩ := cgKillLoop_emptied loop
      rw [loop] at ran
      cases behind : killAll k c fuel rest middle with
      | none => simp [behind] at ran
      | some r =>
        obtain ⟨others, after⟩ := r
        simp only [map_some, bind_eq_bind, bind_some, behind, some.injEq,
          Prod.mk.injEq, singleton_append] at ran
        obtain ⟨rfl, rfl⟩ := ran
        have told := ih behind
        have all : after = seen ++ (appearing k c fuel (lists :: rest) seen).flatten := by
          rw [told.seen_eq, seenEq, appearing, flatten_cons, append_assoc]
        refine ⟨by rw [map_cons, told.visited], all, ?_, fun visit mem => ?_⟩
        · rw [map_cons, told.events, events, appearing, map_cons, seenEq]
        · rcases mem_cons.mp mem with rfl | mem
          · refine ⟨later, fun i less pid listed apart => ?_⟩
            rw [told.seen_eq]
            exact mem_append_left _ (known i (Nat.zero_le i) less pid listed apart)
          · exact told.known visit mem

theorem cgKillLoop_some {lists : Lists} {all : List Pid}
    (finite : ∀ i, ∀ pid ∈ (lists i).pids, pid ∈ all) (i : Nat) (seen : List Pid) (s : Shots)
    (enough : (all.toFinset \ seen.toFinset).card < fuel) :
    ∃ r, cgKillLoop k c lists fuel i seen s = some r := by
  induction fuel generalizing i seen s with
  | zero => cases enough
  | succ fuel ih =>
    rw [cgKillLoop]
    cases here : lists i with
    | failed r => exact ⟨_, rfl⟩
    | listed pids r =>
      simp only [killPids_fresh, Bool.true_and, decide_eq_true_eq]
      split
      next => exact ⟨_, rfl⟩
      next =>
        split
        next => exact ⟨_, rfl⟩
        next more =>
          -- One of the processes that can turn up has done so.
          refine ih _ _ _ (Nat.lt_of_lt_of_le (Finset.card_lt_card ?_) (Nat.le_of_lt_succ enough))
          obtain ⟨pid, mem⟩ := exists_mem_of_ne_nil _ more
          obtain ⟨unseen, listed⟩ := (fresh_new pids seen).2.1 pid mem
          have possible : pid ∈ all := finite i pid (by rw [here]; exact listed)
          refine (Finset.ssubset_iff_of_subset ?_).mpr ⟨pid, by simp [possible, unseen], by simp [mem]⟩
          intro other rest
          simp only [Finset.mem_sdiff, List.mem_toFinset, mem_append, not_or] at rest ⊢
          exact ⟨rest.1, rest.2.1⟩

theorem killAll_some {all : List Pid} (finite : ∀ lists ∈ gs, ∀ i, ∀ pid ∈ (lists i).pids, pid ∈ all)
    (enough : all.length < fuel) (seen : List Pid) : ∃ r, killAll k c fuel gs seen = some r := by
  induction gs generalizing seen with
  | nil => exact ⟨_, rfl⟩
  | cons lists rest ih =>
    rw [forall_mem_cons] at finite
    have room : (all.toFinset \ seen.toFinset).card < fuel :=
      (Finset.card_le_card Finset.sdiff_subset).trans_lt (all.toFinset_card_le.trans_lt enough)
    obtain ⟨r, loop⟩ := cgKillLoop_some (k := k) (c := c) finite.1 0 seen ⟨0, []⟩ room
    obtain ⟨r', later⟩ := ih finite.2 r.1
    simp [killAll, cgKill, loop, later]

theorem sublist_flatten {α : Type} {part whole : List α} {lists : List (List α)} (mem : whole ∈ lists)
    (sub : part.Sublist whole) : part.Sublist lists.flatten :=
  sub.trans (sublist_flatten_of_mem mem)

theorem Told.count (told : Told k c fuel gs seen visits seen') (pid : Pid) :
    (visits.flatMap Visit.events).count (.signal pid) = (appearing k c fuel gs seen).flatten.count pid := by
  rw [List.flatMap_def, told.events, List.count_flatten, List.count_flatten, List.map_map]
  congr 1
  refine List.map_congr_left fun news _ => ?_
  simp [foldl_count]

theorem cgKillRecursive_reaches (k : Kernel) (c : Call) (g : Group) (s : List Pid)
    (finite : ∃ all : List Pid, ∀ lists ∈ g.groups, ∀ i, ∀ pid ∈ (lists i).pids, pid ∈ all) :
    ∃ enough, ∀ fuel, enough ≤ fuel -> ∃ o, cgKillRecursive k c fuel g s = some o ∧
      (Reaches k c s g o ↔ (c.sigcont = true -> ∀ news ∈ appearing k c fuel g.groups s, ∀ pid ∈ news,
        pid ≠ k.self -> k.kill pid = .ok () -> Leads k pid news)) := by
  obtain ⟨all, finite⟩ := finite
  refine ⟨all.length + 1, fun fuel enough => ?_⟩
  obtain ⟨⟨visits, seen'⟩, listed⟩ := killAll_some (k := k) (c := c) finite enough s
  obtain ⟨o, ran, same⟩ := map_eq_some_iff.mp ((cgKillRecursive_all fuel g s).trans listed)
  obtain ⟨rfl, rfl⟩ := Prod.mk.inj same
  have told := killAll_told listed
  obtain ⟨nodup, new⟩ := appearing_new (k := k) (c := c) fuel g.groups s
  have eventsEq : o.events = ((appearing k c fuel g.groups s).map fun news =>
      (news.foldl (strike k c) ⟨0, []⟩).events).flatten := by
    rw [Outcome.events, List.flatMap_def, told.events]
  have signalled : ∀ pid, pid ∉ s -> pid ∈ o.seen -> o.events.count (.signal pid) = 1 := by
    intro pid apart mem
    rw [told.seen_eq, mem_append] at mem
    rw [Outcome.events, told.count]
    exact count_eq_one_of_mem nodup (mem.resolve_left apart)
  have continues : ∀ pid, .cont pid ∈ o.events ↔ c.sigcont = true ∧
      ∃ news ∈ appearing k c fuel g.groups s, Leads k pid news := by
    intro pid
    rw [eventsEq]
    simp only [List.mem_flatten, List.mem_map, exists_exists_and_eq_and, foldl_cont]
    simp
    tauto
  refine ⟨o, ran, fun reaches sigcont news among pid mem apart answer => ?_, fun leads => ?_⟩
  · have sent : .signal pid ∈ o.events := by
      rw [← count_pos_iff, Outcome.events, told.count, count_pos_iff]
      exact List.mem_flatten.mpr ⟨news, among, mem⟩
    have sub := reaches.continued sigcont pid sent apart answer
    obtain ⟨-, other, elsewhere, leads⟩ := (continues pid).mp (sub.subset (by simp))
    have inside : pid ∈ other := by
      clear sub elsewhere
      induction leads with
      | here rest _ => exact mem_cons_self
      | behind _ _ ih => exact mem_cons_of_mem _ ih
    -- No process turns up in two groups.
    obtain rfl : other = news := by
      by_contra distinct
      have symmetric : Std.Symm (@List.Disjoint Pid) := ⟨fun _ _ apart => apart.symm⟩
      exact (nodup_flatten.mp nodup).2.forall elsewhere among distinct inside mem
    exact leads
  · refine ⟨told.visited, fun visit mem i less pid present apart others => ?_,
      fun sigcont pid sent apart answer => ?_, fun visit mem => ⟨(told.known visit mem).1, ?_⟩⟩
    · exact signalled pid apart ((told.known visit mem).2 i less pid present others)
    · rw [← count_pos_iff, Outcome.events, told.count, count_pos_iff] at sent
      obtain ⟨news, among, mem⟩ := List.mem_flatten.mp sent
      have cont := (foldl_cont (c := c) news ⟨0, []⟩ pid).mpr
        (.inr ⟨rfl, sigcont, leads sigcont news among pid mem apart answer⟩)
      have sub := foldl_sublist (k := k) (c := c) news ⟨0, []⟩ (by simp) pid cont
      rw [eventsEq]
      exact sublist_flatten (mem_map_of_mem among) sub
    · intro _ pid present apart others
      have pos := (told.known visit mem).1
      have known := (told.known visit mem).2 (visit.rounds - 1) (by omega) pid present others
      rw [← count_pos_iff, signalled pid apart known]
      exact Nat.one_pos

end

def willing : Kernel := ⟨⟨9, by decide⟩, fun _ => .ok ()⟩

def couple : Group :=
  .node (fun _ => .listed [⟨1, by decide⟩, ⟨2, by decide⟩] 0) (.done 0) 0

theorem couple_reaches : ∃ enough, ∀ fuel, enough ≤ fuel -> ∃ o,
    cgKillRecursive willing ⟨true, true, false⟩ fuel couple [] = some o ∧
      (Reaches willing ⟨true, true, false⟩ [] couple o ↔ (true = true ->
        ∀ news ∈ appearing willing ⟨true, true, false⟩ fuel couple.groups [], ∀ pid ∈ news,
          pid ≠ willing.self -> willing.kill pid = .ok () -> Leads willing pid news)) :=
  cgKillRecursive_reaches willing ⟨true, true, false⟩ couple []
    ⟨[⟨1, by decide⟩, ⟨2, by decide⟩], by simp [couple, Group.groups, Below.groups, Enumeration.pids]⟩

/-- Nobody is signalled twice, and nobody who is excluded. -/
theorem cgKillRecursive_once {k : Kernel} {c : Call} {fuel : Nat} {g : Group} {s : List Pid} {o : Outcome}
    (ran : cgKillRecursive k c fuel g s = some o) (pid : Pid) :
    o.events.count (.signal pid) = (if pid ∈ o.seen ∧ pid ∉ s then 1 else 0) ∧
      (.cont pid ∈ o.events -> .signal pid ∈ o.events) := by
  have told := killAll_told ((cgKillRecursive_all fuel g s).symm.trans (congrArg _ ran))
  obtain ⟨nodup, new⟩ := appearing_new (k := k) (c := c) fuel g.groups s
  constructor
  · rw [Outcome.events, told.count, nodup.count, told.seen_eq]
    congr 1
    grind
  · rw [Outcome.events, List.flatMap_def, told.events]
    simp only [List.mem_flatten, List.mem_map, exists_exists_and_eq_and]
    exact fun ⟨news, among, sent⟩ =>
      ⟨news, among, (foldl_sublist news ⟨0, []⟩ (by simp) pid sent).subset (by simp)⟩

theorem couple_once : ∃ o, cgKillRecursive willing ⟨true, true, false⟩ 3 couple [] = some o ∧
    ∀ pid, o.events.count (.signal pid) ≤ 1 := by
  obtain ⟨o, ran⟩ : ∃ o, cgKillRecursive willing ⟨true, true, false⟩ 3 couple [] = some o := ⟨_, rfl⟩
  exact ⟨o, ran, fun pid => (cgKillRecursive_once ran pid).1.trans_le (by split <;> decide)⟩

theorem couple_stopped : ¬∃ enough, ∀ fuel, enough ≤ fuel -> ∃ o,
    cgKillRecursive willing ⟨true, true, false⟩ fuel couple [] = some o ∧
      Reaches willing ⟨true, true, false⟩ [] couple o := by
  rintro ⟨enough, each⟩
  obtain ⟨o, ran, reaches⟩ := each (enough + 2) (by omega)
  have events : cgKillRecursive willing ⟨true, true, false⟩ (enough + 2) couple [] = some
      ⟨[⟨1, by decide⟩, ⟨2, by decide⟩], 1, [⟨fun _ => .listed [⟨1, by decide⟩, ⟨2, by decide⟩] 0, 2,
        [.signal ⟨1, by decide⟩, .cont ⟨1, by decide⟩, .signal ⟨2, by decide⟩]⟩]⟩ := rfl
  rw [events] at ran
  obtain rfl := some.inj ran
  have missing := reaches.continued rfl ⟨2, by decide⟩ (by decide) (by decide) rfl
  revert missing
  decide

end Systemd.Groups
