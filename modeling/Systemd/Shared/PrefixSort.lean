import Mathlib.Data.List.Destutter
import Mathlib.Data.List.Sort
import Mathlib.Order.Basic

set_option autoImplicit false

namespace Systemd.PrefixSort

open List

variable {E α : Type} (key : E -> List α) (rank : E -> Nat)

/-- Of two entries with the same key the one of the lower rank has to come first, of two others the
one whose key is a prefix of the other key. -/
def Before (first second : E) : Prop :=
  key first = key second ∧ rank first < rank second ∨ key first <+: key second ∧ key first ≠ key second

def Related (first second : E) : Prop := key first <+: key second ∨ key second <+: key first

def Clash (entries : List E) : Prop :=
  ∃ p q r rest, entries.Perm (p :: q :: r :: rest) ∧ key p <+: key r ∧ ¬Related key p q ∧ ¬Related key r q

def Ordered (entries : List E) : Prop := entries.IsChain fun first second => ¬Before key rank second first

/-- One entry for each key, of the lowest rank, and none behind an entry whose key extends its own. -/
structure Arranged (entries kept : List E) : Prop where
  distinct : (kept.map key).Nodup
  covered : ∀ entry ∈ entries, ∃ other ∈ kept, key other = key entry
  taken : ∀ other ∈ kept, other ∈ entries
  lowest : ∀ other ∈ kept, ∀ entry ∈ entries, key entry = key other -> rank other ≤ rank entry
  parents : kept.Pairwise fun first second => ¬(key second <+: key first ∧ key second ≠ key first)

section

variable {key rank}

variable {first second : E} {entries : List E}

section

variable (before : Before key rank first second)
include before

theorem Before.isPrefix : key first <+: key second := by
  rcases before with ⟨same, -⟩ | ⟨longer, -⟩
  · exact same ▸ prefix_rfl
  · exact longer

theorem Before.asymm : ¬Before key rank second first := by
  intro after
  have same : key first = key second := before.isPrefix.eq_of_length_le after.isPrefix.length_le
  rcases before with ⟨-, less⟩ | ⟨-, different⟩
  · rcases after with ⟨-, more⟩ | ⟨-, different⟩
    · omega
    · exact different same.symm
  · exact different same

theorem Before.trans {third : E} (after : Before key rank second third) :
    Before key rank first third := by
  rcases before with ⟨same, less⟩ | ⟨longer, different⟩
  · rcases after with ⟨again, more⟩ | ⟨longer, different⟩
    · exact .inl ⟨same.trans again, less.trans more⟩
    · exact .inr ⟨same ▸ longer, same ▸ different⟩
  · refine .inr ⟨longer.trans after.isPrefix, fun same => different ?_⟩
    exact longer.eq_of_length_le (same ▸ after.isPrefix.length_le)

end

theorem Related.symm (related : Related key first second) : Related key second first :=
  Or.symm related

theorem not_before (related : Related key first second) (late : ¬Before key rank second first) :
    Before key rank first second ∨ key first = key second ∧ rank first = rank second := by
  by_cases same : key first = key second
  · have notLess : ¬rank second < rank first := fun less => late (.inl ⟨same.symm, less⟩)
    rcases Nat.lt_or_ge (rank first) (rank second) with less | notMore
    · exact .inl (.inl ⟨same, less⟩)
    · exact .inr ⟨same, by omega⟩
  · rcases related with longer | longer
    · exact .inl (.inr ⟨longer, same⟩)
    · exact absurd (.inr ⟨longer, Ne.symm same⟩) late

theorem le_of_not_before (same : key first = key second) (late : ¬Before key rank second first) :
    rank first ≤ rank second := by
  by_contra more
  exact late (.inl ⟨same.symm, by omega⟩)

theorem clash_of_subperm {p q r : E} (among : [p, q, r].Subperm entries) (related : Related key p r)
    (first : ¬Related key p q) (last : ¬Related key r q) : Clash key entries := by
  obtain ⟨found, perm, sub⟩ := among
  obtain ⟨rest, whole⟩ := sub.exists_perm_append
  have listed : entries.Perm (p :: q :: r :: rest) := whole.trans (perm.append_right rest)
  rcases related with longer | longer
  · exact ⟨p, q, r, rest, listed, longer, first, last⟩
  · have swapped : [p, q, r].Perm [r, q, p] := (reverse_perm [p, q, r]).symm
    exact ⟨r, q, p, rest, listed.trans (swapped.append_right rest), longer, last, first⟩

section

variable (clear : ¬Clash key entries)
include clear

theorem not_before_trans {x y z : E} (memberX : x ∈ entries) (memberY : y ∈ entries)
    (memberZ : z ∈ entries) (first : ¬Before key rank y x) (second : ¬Before key rank z y) :
    ¬Before key rank z x := by
  intro late
  by_cases near : Related key x y
  · rcases not_before near first with before | ⟨same, level⟩
    · exact second (late.trans before)
    · rw [Before, same, level] at late
      exact second late
  · by_cases next : Related key y z
    · rcases not_before next second with before | ⟨same, level⟩
      · exact first (before.trans late)
      · rw [Before, ← same, ← level] at late
        exact first late
    · have apart : x ≠ z := by
        rintro rfl
        exact late.asymm late
      have self (entry : E) : Related key entry entry := .inl prefix_rfl
      have distinct : [z, y, x].Nodup := by
        have front : z ≠ y := by
          rintro rfl
          exact next (self z)
        have back : y ≠ x := by
          rintro rfl
          exact near (self y)
        simp [front, back, apart.symm]
      have among : [z, y, x].Subperm entries := by
        apply subperm_of_subset distinct
        simp [memberX, memberY, memberZ]
      exact clear (clash_of_subperm among (.inl late.isPrefix) (fun related => next related.symm) near)

theorem Ordered.pairwise {sorted : List E} (within : sorted ⊆ entries)
    (ordered : Ordered key rank sorted) :
    sorted.Pairwise fun first second => ¬Before key rank second first := by
  induction sorted with
  | nil => exact .nil
  | cons first rest ih =>
    have inside : rest ⊆ entries := fun entry mem => within (mem_cons_of_mem first mem)
    have later := ih inside ordered.tail
    refine pairwise_cons.mpr ⟨?_, later⟩
    intro entry mem
    cases rest with
    | nil => cases mem
    | cons second rest =>
      have step : ¬Before key rank second first := (isChain_cons_cons.mp ordered).1
      rcases mem_cons.mp mem with rfl | mem
      · exact step
      · exact not_before_trans clear (within mem_cons_self) (inside mem_cons_self)
          (inside (mem_cons_of_mem second mem)) step ((pairwise_cons.mp later).1 entry mem)

theorem grouped {sorted : List E} (perm : sorted.Perm entries)
    (pairwise : sorted.Pairwise fun first second => ¬Before key rank second first) {a b c : E}
    (among : [a, b, c].Sublist sorted) (same : key a = key c) : key b = key a := by
  have order := pairwise.sublist among
  simp only [pairwise_cons, mem_cons, not_mem_nil, or_false] at order
  by_contra different
  have early : ¬Before key rank b a := order.1 b (.inl rfl)
  have late : ¬Before key rank c b := order.2.1 c rfl
  have unrelated : ¬Related key a b := by
    rintro (longer | longer)
    · exact late (.inr ⟨same ▸ longer, fun equal => different (equal.symm.trans same.symm)⟩)
    · exact early (.inr ⟨longer, different⟩)
  exact clear (clash_of_subperm (among.subperm.trans perm.subperm) (.inl (same ▸ prefix_rfl)) unrelated
    (fun related => unrelated (by rwa [Related, same])))

end

end

section

variable [DecidableEq α]

def dropRepeats (entries : List E) : List E := entries.destutter fun first second => key first ≠ key second

def dropAfter (first : E) (entries : List E) : List E :=
  entries.destutter' (fun first second => key first ≠ key second) first

variable {key rank} {first second : E} {rest : List E}

theorem dropAfter_other (different : key first ≠ key second) :
    dropAfter key first (second :: rest) = first :: dropAfter key second rest :=
  destutter'_cons_pos _ different

theorem dropAfter_same (same : key first = key second) :
    dropAfter key first (second :: rest) = dropAfter key first rest :=
  destutter'_cons_neg _ (not_not.mpr same)

theorem mem_dropAfter_self (first : E) (rest : List E) : first ∈ dropAfter key first rest :=
  mem_destutter' _ _ _

theorem dropAfter_sublist (first : E) (rest : List E) : (dropAfter key first rest).Sublist (first :: rest) :=
  destutter'_sublist _ _ _

theorem dropAfter_covered (first : E) (rest : List E) :
    ∀ entry ∈ first :: rest, ∃ other ∈ dropAfter key first rest, key other = key entry := by
  induction rest generalizing first with
  | nil =>
    intro entry mem
    exact ⟨entry, mem, rfl⟩
  | cons second rest ih =>
    intro entry mem
    by_cases same : key first = key second
    · rw [dropAfter_same same]
      rcases mem_cons.mp mem with rfl | mem
      · exact ih entry entry mem_cons_self
      · rcases mem_cons.mp mem with rfl | mem
        · obtain ⟨other, kept, equal⟩ := ih first first mem_cons_self
          exact ⟨other, kept, equal.trans same⟩
        · exact ih first entry (mem_cons_of_mem first mem)
    · rw [dropAfter_other same]
      rcases mem_cons.mp mem with rfl | mem
      · exact ⟨entry, mem_cons_self, rfl⟩
      · obtain ⟨other, kept, equal⟩ := ih second entry mem
        exact ⟨other, mem_cons_of_mem first kept, equal⟩

def Grouped (key : E -> List α) (entries : List E) : Prop :=
  ∀ a b c, [a, b, c].Sublist entries -> key a = key c -> key b = key a

theorem dropAfter_distinct (grouped : Grouped key (first :: rest)) : ((dropAfter key first rest).map key).Nodup := by
  induction rest generalizing first with
  | nil => exact nodup_singleton _
  | cons second rest ih =>
    by_cases same : key first = key second
    · rw [dropAfter_same same]
      exact ih fun a b c among => grouped a b c (among.trans ((sublist_cons_self second rest).cons_cons first))
    · rw [dropAfter_other same, map_cons, nodup_cons]
      refine ⟨?_, ih fun a b c among => grouped a b c (among.cons first)⟩
      intro repeated
      obtain ⟨other, kept, equal⟩ := mem_map.mp repeated
      rcases mem_cons.mp ((dropAfter_sublist second rest).subset kept) with rfl | mem
      · exact same equal.symm
      · have among : [first, second, other].Sublist (first :: second :: rest) :=
          (singleton_sublist.mpr mem).cons_cons second |>.cons_cons first
        exact same (grouped first second other among equal.symm).symm

theorem dropAfter_lowest (grouped : Grouped key (first :: rest))
    (order : (first :: rest).Pairwise fun first second => ¬Before key rank second first) :
    ∀ other ∈ dropAfter key first rest, ∀ entry ∈ first :: rest, key entry = key other -> rank other ≤ rank entry := by
  induction rest generalizing first with
  | nil =>
    intro other kept entry mem same
    rw [mem_singleton.mp kept, mem_singleton.mp mem]
  | cons second rest ih =>
    have distinct := dropAfter_distinct grouped
    have front := (pairwise_cons.mp order).1
    by_cases same : key first = key second
    · rw [dropAfter_same same]
      have shorter : (first :: rest).Sublist (first :: second :: rest) :=
        (sublist_cons_self second rest).cons_cons first
      have lowest := ih (fun a b c among => grouped a b c (among.trans shorter)) (order.sublist shorter)
      intro other kept entry mem equal
      rcases mem_cons.mp mem with rfl | mem
      · exact lowest other kept entry mem_cons_self equal
      · rcases mem_cons.mp mem with rfl | mem
        · exact (lowest other kept first mem_cons_self (same.trans equal)).trans
            (le_of_not_before same (front entry mem_cons_self))
        · exact lowest other kept entry (mem_cons_of_mem first mem) equal
    · rw [dropAfter_other same] at distinct ⊢
      have lowest := ih (fun a b c among => grouped a b c (among.cons first)) order.of_cons
      intro other kept entry mem equal
      rcases mem_cons.mp kept with rfl | later
      · rcases mem_cons.mp mem with rfl | mem
        · exact le_rfl
        · exact le_of_not_before equal.symm (front entry mem)
      · rcases mem_cons.mp mem with rfl | mem
        · rw [map_cons, nodup_cons] at distinct
          exact absurd (equal ▸ mem_map_of_mem later) distinct.1
        · exact lowest other later entry mem equal

theorem arranged_of_clear {entries sorted : List E} (clear : ¬Clash key entries) (perm : sorted.Perm entries)
    (ordered : Ordered key rank sorted) : Arranged key rank entries (dropRepeats key sorted) := by
  have order := ordered.pairwise clear perm.subset
  have grouped : Grouped key sorted := fun a b c among => grouped clear perm order among
  cases sorted with
  | nil =>
    obtain rfl : entries = [] := by simpa using perm
    exact ⟨by simp [dropRepeats], by simp, by simp [dropRepeats], by simp, by simp [dropRepeats]⟩
  | cons first rest =>
    show Arranged key rank entries (dropAfter key first rest)
    constructor
    · exact dropAfter_distinct grouped
    · intro entry mem
      exact dropAfter_covered first rest entry (perm.mem_iff.mpr mem)
    · intro other kept
      exact perm.subset ((dropAfter_sublist first rest).subset kept)
    · intro other kept entry mem
      exact dropAfter_lowest grouped order other kept entry (perm.mem_iff.mpr mem)
    · apply (order.sublist (dropAfter_sublist first rest)).imp
      intro earlier later late extension
      exact late (.inr extension)

theorem dropAfter_split {p q : E} (different : key q ≠ key p) (front back : List E) :
    dropAfter key first (front ++ q :: p :: back) = dropAfter key first (front ++ [q]) ++ dropAfter key p back := by
  induction front generalizing first with
  | nil =>
    by_cases same : key first = key q
    · rw [nil_append, nil_append, dropAfter_same same, dropAfter_same same,
        dropAfter_other (same ▸ different)]
      rfl
    · rw [nil_append, nil_append, dropAfter_other same, dropAfter_other same, dropAfter_other different]
      rfl
  | cons second front ih =>
    rw [cons_append, cons_append]
    by_cases same : key first = key second
    · rw [dropAfter_same same, dropAfter_same same, ih]
    · rw [dropAfter_other same, dropAfter_other same, ih, cons_append]

end

section

variable {key rank} {first second : E}

def Shallower (key : E -> List α) (rank : E -> Nat) (first second : E) : Prop :=
  (key first).length < (key second).length ∨
    (key first).length = (key second).length ∧ rank first ≤ rank second

instance (first second : E) : Decidable (Shallower key rank first second) :=
  inferInstanceAs (Decidable (_ ∨ _ ∧ _))

instance : Std.Total (Shallower key rank) where
  total first second := by
    unfold Shallower
    omega

instance : IsTrans E (Shallower key rank) where
  trans first second third := by
    unfold Shallower
    omega

theorem Before.not_shallower (before : Before key rank first second) : ¬Shallower key rank second first := by
  unfold Shallower
  rcases before with ⟨same, less⟩ | ⟨longer, different⟩
  · rw [same]
    omega
  · have shorter : (key first).length < (key second).length := by
      apply lt_of_le_of_ne longer.length_le
      intro equal
      exact different (longer.eq_of_length equal)
    omega

variable (rank) in
theorem ordered_of_clash {entries : List E} (clash : Clash key entries) :
    ∃ front p q r back, (front ++ r :: q :: p :: back).Perm entries ∧
      Ordered key rank (front ++ r :: q :: p :: back) ∧ key p <+: key r ∧ ¬Related key p q := by
  obtain ⟨p, q, r, rest, perm, longer, apartP, apartR, shallow⟩ : ∃ p q r rest, entries.Perm (p :: q :: r :: rest) ∧
      key p <+: key r ∧ ¬Related key p q ∧ ¬Related key r q ∧ Shallower key rank p r := by
    obtain ⟨p, q, r, rest, perm, longer, apartP, apartR⟩ := clash
    by_cases shallow : Shallower key rank p r
    · exact ⟨p, q, r, rest, perm, longer, apartP, apartR, shallow⟩
    · have deeper := (Std.Total.total (r := Shallower key rank) p r).resolve_left shallow
      have same : key p = key r := by
        apply longer.eq_of_length_le
        unfold Shallower at deeper
        omega
      have swapped : [p, q, r].Perm [r, q, p] := (reverse_perm [p, q, r]).symm
      exact ⟨r, q, p, rest, perm.trans (swapped.append_right rest), same ▸ prefix_rfl, apartR, apartP, deeper⟩
  let front := (rest.filter fun entry => Shallower key rank entry r).insertionSort (Shallower key rank)
  let back := (rest.filter fun entry => ¬Shallower key rank entry r).insertionSort (Shallower key rank)
  have sorted (part : List E) : Ordered key rank (part.insertionSort (Shallower key rank)) := by
    apply (pairwise_insertionSort (Shallower key rank) part).isChain.imp
    intro first second shallow before
    exact before.not_shallower shallow
  refine ⟨front, p, q, r, back, ?_, ?_, longer, apartP⟩
  · have parts : (front ++ back).Perm rest :=
      ((perm_insertionSort _ _).append (perm_insertionSort _ _)).trans (by
        simpa using filter_append_perm (fun entry => decide (Shallower key rank entry r)) rest)
    have middle : (front ++ r :: q :: p :: back).Perm (r :: q :: p :: (front ++ back)) := by
      have moved := @perm_append_comm _ front [r, q, p]
      simpa using moved.append_right back
    have swapped : [r, q, p].Perm [p, q, r] := reverse_perm [p, q, r]
    exact middle.trans ((parts.append_left _).trans ((swapped.append_right rest).trans perm.symm))
  · have unrelated {first second : E} (apart : ¬Related key first second) : ¬Before key rank second first :=
      fun before => apart (.inr before.isPrefix)
    refine isChain_append.mpr ⟨sorted _, ?_, ?_⟩
    · refine isChain_cons_cons.mpr ⟨unrelated apartR, isChain_cons_cons.mpr
        ⟨unrelated fun related => apartP related.symm, ?_⟩⟩
      refine isChain_cons.mpr ⟨?_, sorted _⟩
      intro next head before
      have mem : next ∈ back := mem_of_mem_head? head
      rw [mem_insertionSort, mem_filter] at mem
      have deeper : ¬Shallower key rank next r := by simpa using mem.2
      have further := (Std.Total.total (r := Shallower key rank) r next).resolve_right deeper
      exact before.not_shallower (IsTrans.trans p r next shallow further)
    · intro last tail next head before
      have mem : last ∈ front := mem_of_getLast? tail
      rw [mem_insertionSort, mem_filter] at mem
      obtain rfl : r = next := by simpa using head
      exact before.not_shallower (by simpa using mem.2)

variable (rank) in
theorem not_arranged [DecidableEq α] {entries : List E} (clash : Clash key entries) :
    ∃ sorted, sorted.Perm entries ∧ Ordered key rank sorted ∧
      ¬Arranged key rank entries (dropRepeats key sorted) := by
  obtain ⟨front, p, q, r, back, perm, ordered, longer, apart⟩ := ordered_of_clash rank clash
  refine ⟨_, perm, ordered, fun arranged => ?_⟩
  obtain ⟨first, rest, whole⟩ : ∃ first rest, front ++ [r] = first :: rest :=
    exists_cons_of_ne_nil (by simp)
  have different : key q ≠ key p := fun same => apart (.inl (same ▸ prefix_rfl))
  have kept : dropRepeats key (front ++ r :: q :: p :: back) =
      dropAfter key first (rest ++ [q]) ++ dropAfter key p back := by
    rw [← dropAfter_split different rest back]
    have split : front ++ r :: q :: p :: back = first :: (rest ++ q :: p :: back) := by
      rw [← cons_append, ← whole, append_assoc]
      rfl
    rw [split]
    rfl
  have listed : r ∈ first :: (rest ++ [q]) := by
    rw [← cons_append, ← whole]
    simp
  have covered : ∃ other ∈ dropAfter key first (rest ++ [q]), key other = key r :=
    dropAfter_covered first (rest ++ [q]) r listed
  obtain ⟨other, early, same⟩ := covered
  have late : p ∈ dropAfter key p back := mem_dropAfter_self p back
  rw [kept] at arranged
  by_cases equal : key p = key r
  · have distinct := arranged.distinct
    rw [map_append] at distinct
    exact (nodup_append.mp distinct).2.2 _ (mem_map_of_mem early) _ (mem_map_of_mem late)
      (same.trans equal.symm)
  · exact (pairwise_append.mp arranged.parents).2.2 other early p late ⟨same ▸ longer, same ▸ equal⟩

variable (key rank) in
theorem arranged_iff [DecidableEq α] (entries : List E) :
    (∀ sorted, sorted.Perm entries -> Ordered key rank sorted -> Arranged key rank entries (dropRepeats key sorted)) ↔
      ¬Clash key entries := by
  constructor
  · intro arranged clash
    obtain ⟨sorted, perm, ordered, wrong⟩ := not_arranged rank clash
    exact wrong (arranged sorted perm ordered)
  · intro clear sorted perm ordered
    exact arranged_of_clear clear perm ordered

end

end Systemd.PrefixSort
