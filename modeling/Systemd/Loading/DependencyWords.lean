import Mathlib.Data.Finset.Card
import Mathlib.Order.Lattice.Nat
import Systemd.Basic.Quoted
import Systemd.Loading.Welcome

set_option autoImplicit false

namespace Systemd.Loading

open Program List Option

def percent : UInt8 := '%'.toUInt8

/-- The text with the specifiers replaced. The flag tells whether the last character was a percent
sign; a specifier that the table does not have is left as it is. -/
def specifierLoop (table : UInt8 -> Option (Option CString)) : Bool -> List UInt8 -> Option (List UInt8)
  | _, [] => some []
  | false, f :: text =>
    if f = percent then
      specifierLoop table true text
    else
      (specifierLoop table false text).map (f :: ·)
  | true, f :: text =>
    if f = percent then
      (specifierLoop table false text).map (percent :: ·)
    else
      match table f with
      | none => (specifierLoop table false text).map (percent :: f :: ·)
      | some none => none
      | some (some w) => (specifierLoop table false text).map (w.bytes ++ ·)

def specifierPrintf (text : CString) (table : UInt8 -> Option (Option CString)) : Option CString :=
  (specifierLoop table false text.bytes).map .ofBuffer

def unitNameToPrefixAndInstance (n : CString) : Option CString :=
  (strrchr n.bytes '.'.toUInt8).map fun d => .ofBuffer (n.bytes.take d)

def specifierPrefix (id : CString) : Option CString :=
  match strchr id.bytes '@'.toUInt8 with
  | some p => some (.ofBuffer (id.bytes.take p))
  | none => unitNameToPrefixAndInstance id

def nameSpecifiers (id : CString) (part : Option CString) (specifier : UInt8) :
    Option (Option CString) :=
  if specifier = 'n'.toUInt8 then
    some (some id)
  else if specifier = 'N'.toUInt8 then
    some (unitNameToPrefixAndInstance id)
  else if specifier = 'p'.toUInt8 then
    some (specifierPrefix id)
  else if specifier = 'i'.toUInt8 then
    some (some (part.getD (.ofBuffer [])))
  else
    none

def unitNamePrintf (id : CString) (part : Option CString) (format : CString) : Option CString :=
  specifierPrintf format (nameSpecifiers id part)

section

variable {U : Type} [DecidableEq U]

def addWord (h : Host U) (u : U) (d : UnitDependency) (t : CString) : Load U Unit := do
  let l ← read
  let id ← orAbort (l.registry.id u)
  let k ← orAbort (unitNamePrintf id (l.registry.instancePart u) t)
  unitAddDependencyByName h u d k none

def addWords (h : Host U) (u : U) (d : UnitDependency) (words : List CString) : Load U Unit :=
  untilFails words (addWord h u d)

def settingWords (rvalue : CString) : List CString :=
  (wordsQuoted rvalue.bytes).map fun w => w.1.copied

-- The first name that is refused is logged, and ends the loop. There is enough memory.
def configParseUnitDeps (h : Host U) (u : U) (d : UnitDependency) (rvalue : CString) : Load U Unit :=
  addWords h u d (settingWords rvalue)

end

def said (i : CString) (part : Option CString) (t : CString) : Option CString :=
  (unitNamePrintf i part t).bind (resolved i part)

theorem valid_dot {n : CString} {templateOk : Bool} (valid : unitNameIsValid n templateOk = true) :
    ∃ e, strrchr n.bytes '.'.toUInt8 = some e := by
  cases dot : strrchr n.bytes '.'.toUInt8 with
  | some e => exact ⟨e, rfl⟩
  | none =>
    unfold unitNameIsValid at valid
    split at valid
    next => cases valid
    next => simp [unitNameIsValidNoType, dot] at valid

theorem specifierLoop_total {table : UInt8 -> Option (Option CString)} (total : ∀ f, table f ≠ some none)
    (flag : Bool) (text : List UInt8) : (specifierLoop table flag text).isSome = true := by
  fun_induction specifierLoop table flag text with
  | case1 => rfl
  | case2 _ ih => exact ih
  | case3 _ _ _ ih => simpa using ih
  | case4 _ ih => simpa using ih
  | case5 _ _ _ _ ih => simpa using ih
  | case6 f _ _ entry => exact absurd entry (total f)
  | case7 _ _ _ _ _ ih => simpa using ih

theorem unitNamePrintf_total {i : CString} {e : Nat} (dot : strrchr i.bytes '.'.toUInt8 = some e)
    (part : Option CString) (t : CString) : ∃ k, unitNamePrintf i part t = some k := by
  have total : ∀ f, nameSpecifiers i part f ≠ some none := by
    intro f
    have whole : unitNameToPrefixAndInstance i = some (.ofBuffer (i.bytes.take e)) := by
      rw [unitNameToPrefixAndInstance, dot, map_some]
    unfold nameSpecifiers specifierPrefix
    rw [whole]
    split_ifs
    · simp
    · simp
    · cases strchr i.bytes '@'.toUInt8 <;> simp
    · simp
    · simp
  obtain ⟨bytes, run⟩ := isSome_iff_exists.mp (specifierLoop_total total false t.bytes)
  exact ⟨.ofBuffer bytes, by rw [unitNamePrintf, specifierPrintf, run, map_some]⟩

theorem said_total {i : CString} {e : Nat} (dot : strrchr i.bytes '.'.toUInt8 = some e)
    (part : Option CString) (t : CString) : ∃ n, said i part t = some n := by
  obtain ⟨k, printed⟩ := unitNamePrintf_total dot part t
  obtain ⟨n, names⟩ := resolved_some i part k
  exact ⟨n, by rw [said, printed, bind_some, names]⟩

section

variable {U : Type}

def DependsOn (d : UnitDependency) (owner : U) (l : Loader U) (n : CString) : Prop :=
  ∃ y, l.registry.units.get n = some y ∧ LinkedTo d owner l y

def Added (d : UnitDependency) (owner : U) (l : Loader U) (n : CString) : Prop :=
  ∃ y, l.registry.units.get n = some y ∧ (y = owner ∨ LinkedTo d owner l y)

def InTable (l : Loader U) (n : CString) : Prop := (l.registry.units.get n).isSome = true

instance (l : Loader U) (n : CString) : Decidable (InTable l n) := inferInstanceAs (Decidable (_ = true))

def newNames (l : Loader U) (names : List CString) : Finset CString :=
  {n ∈ names.toFinset | ¬ InTable l n}

structure AllWelcome (l : Loader U) (names : List CString) : Prop where
  valid : ∀ n ∈ names, unitNameIsValid n false = true ∧ (InTable l n ∨ ∃ t part, Loadable n t part)
  room : newNames l names = ∅ ∨ l.registry.units.length + (newNames l names).card ≤ managerMaxNames

structure Progress (d : UnitDependency) (owner : U) (l l' : Loader U) (names : List CString) : Prop where
  welcome : AllWelcome l names
  known : ∀ x y, l.registry.units.get x = some y -> l'.registry.units.get x = some y
  only : ∀ x, InTable l' x -> InTable l x ∨ x ∈ names
  here : ∀ n ∈ names, InTable l' n
  apart : ∀ n ∈ names, ¬ InTable l n -> ∀ y, l'.registry.units.get n = some y ->
    y ≠ owner ∧ ∀ x, l.registry.units.get x ≠ some y
  length : l'.registry.units.length = l.registry.units.length + (newNames l names).card
  links : ∀ z, LinkedTo d owner l' z ↔
    LinkedTo d owner l z ∨ ∃ n ∈ names, l'.registry.units.get n = some z ∧ z ≠ owner

section

variable {d : UnitDependency} {owner : U} {l l' l'' : Loader U} {n : CString} {names : List CString}

theorem Progress.refl : Progress d owner l l [] where
  welcome := ⟨by simp, .inl (by simp [newNames])⟩
  known _ _ there := there
  only _ there := .inl there
  here := by simp
  apart := by simp
  length := by simp [newNames]
  links := by simp

theorem mem_newNames : n ∈ newNames l names ↔ n ∈ names ∧ ¬ InTable l n := by
  simp [newNames]

theorem Progress.inTable (progress : Progress d owner l l' names) (n : CString) :
    InTable l' n ↔ InTable l n ∨ n ∈ names := by
  constructor
  · exact progress.only n
  · rintro (before | listed)
    · obtain ⟨y, there⟩ := isSome_iff_exists.mp before
      rw [InTable, progress.known n y there]
      rfl
    · exact progress.here n listed

theorem Progress.step (progress : Progress d owner l l' names) (welcome : Welcome l' n)
    (adds : Adds d owner n l' l'') : Progress d owner l l'' (names ++ [n]) := by
  have kept : ∀ x, InTable l' x -> InTable l'' x := by
    intro x before
    obtain ⟨y, there⟩ := isSome_iff_exists.mp before
    rw [InTable, adds.known x y there]
    rfl
  have grown : newNames l (names ++ [n]) =
      if InTable l' n then newNames l names else insert n (newNames l names) := by
    ext x
    split
    next before =>
      rw [mem_newNames, mem_newNames, mem_append, mem_singleton]
      constructor
      · rintro ⟨listed | rfl, new⟩
        · exact ⟨listed, new⟩
        · exact ⟨((progress.inTable x).mp before).resolve_left new, new⟩
      · rintro ⟨listed, new⟩
        exact ⟨.inl listed, new⟩
    next free =>
      rw [Finset.mem_insert, mem_newNames, mem_newNames, mem_append, mem_singleton]
      constructor
      · rintro ⟨listed | rfl, new⟩
        · exact .inr ⟨listed, new⟩
        · exact .inl rfl
      · rintro (rfl | ⟨listed, new⟩)
        · exact ⟨.inr rfl, fun before => free ((progress.inTable x).mpr (.inl before))⟩
        · exact ⟨.inl listed, new⟩
  have card : (newNames l (names ++ [n])).card =
      (newNames l names).card + if l'.registry.units.get n = none then 1 else 0 := by
    rw [grown]
    split
    next before =>
      obtain ⟨y, there⟩ := isSome_iff_exists.mp before
      rw [there, if_neg (by simp), Nat.add_zero]
    next free =>
      have absent : n ∉ newNames l names := fun listed =>
        free (progress.here n (mem_newNames.mp listed).1)
      rw [Finset.card_insert_of_notMem absent, if_pos (by simpa [InTable] using free)]
  constructor
  case welcome =>
    refine ⟨fun x listed => ?_, ?_⟩
    · rcases mem_append.mp listed with before | last
      · exact progress.welcome.valid x before
      · obtain rfl := mem_singleton.mp last
        refine ⟨welcome.valid, ?_⟩
        rcases welcome.unit with known | ⟨loadable, -⟩
        · rcases (progress.inTable x).mp known with before | listed
          · exact .inl before
          · exact (progress.welcome.valid x listed).2
        · exact .inr loadable
    · rw [card]
      by_cases free : l'.registry.units.get n = none
      · have room : l'.registry.units.length < managerMaxNames := by
          rcases welcome.unit with known | ⟨-, room⟩
          · rw [free] at known
            cases known
          · exact room
        rw [progress.length] at room
        exact .inr (by rw [if_pos free]; omega)
      · have before : InTable l' n := isSome_iff_ne_none.mpr free
        rw [if_neg free, Nat.add_zero, grown, if_pos before]
        exact progress.welcome.room
  case known => exact fun x y there => adds.known x y (progress.known x y there)
  case only =>
    intro x there
    obtain ⟨y, entry⟩ := isSome_iff_exists.mp there
    rcases adds.only x y entry with before | rfl
    · rcases progress.only x (by rw [InTable, before]; rfl) with old | listed
      · exact .inl old
      · exact .inr (mem_append_left _ listed)
    · exact .inr (by simp)
  case here =>
    intro x listed
    rcases mem_append.mp listed with before | last
    · exact kept x (progress.here x before)
    · obtain rfl := mem_singleton.mp last
      exact adds.here
  case apart =>
    intro x listed new y there
    by_cases before : InTable l' x
    · obtain ⟨z, entry⟩ := isSome_iff_exists.mp before
      rw [adds.known x z entry] at there
      obtain rfl := some.inj there
      exact progress.apart x (((progress.inTable x).mp before).resolve_left new) new z entry
    · obtain rfl : x = n := by
        rcases mem_append.mp listed with there | last
        · exact absurd (progress.here x there) before
        · exact mem_singleton.mp last
      obtain ⟨other, fresh⟩ := adds.apart (by simpa [InTable] using before) y there
      exact ⟨other, fun z old => fresh z (progress.known z y old)⟩
  case length => rw [adds.length, progress.length, card, Nat.add_assoc]
  case links =>
    intro z
    rw [adds.links, progress.links]
    have last : ∀ x ∈ names, (l''.registry.units.get x = some z ↔ l'.registry.units.get x = some z) := by
      intro x listed
      obtain ⟨y, entry⟩ := isSome_iff_exists.mp (progress.here x listed)
      rw [entry, adds.known x y entry]
    constructor
    · rintro ((before | ⟨x, listed, there, other⟩) | ⟨there, other⟩)
      · exact .inl before
      · exact .inr ⟨x, by simp [listed], (last x listed).mpr there, other⟩
      · exact .inr ⟨n, by simp, there, other⟩
    · rintro (before | ⟨x, listed, there, other⟩)
      · exact .inl (.inl before)
      · rcases mem_append.mp listed with early | late
        · exact .inl (.inr ⟨x, early, (last x early).mp there, other⟩)
        · obtain rfl := mem_singleton.mp late
          exact .inr ⟨there, other⟩

def SharesUnit (l : Loader U) (x n : CString) : Prop :=
  x = n ∨ ∃ y, l.registry.units.get x = some y ∧ l.registry.units.get n = some y

theorem Progress.dependsOn (progress : Progress d owner l l' names) (x : CString) :
    DependsOn d owner l' x ↔ DependsOn d owner l x ∨
      ∃ n ∈ names, SharesUnit l x n ∧ l.registry.units.get n ≠ some owner := by
  constructor
  · rintro ⟨y, there, linked⟩
    have there' : InTable l' x := by
      rw [InTable, there]
      rfl
    by_cases old : InTable l x
    · obtain ⟨z, before⟩ := isSome_iff_exists.mp old
      obtain rfl : y = z := some.inj (there.symm.trans (progress.known x z before))
      rcases (progress.links y).mp linked with already | ⟨n, listed, entry, other⟩
      · exact .inl ⟨y, before, already⟩
      · by_cases oldName : InTable l n
        · obtain ⟨w, beforeName⟩ := isSome_iff_exists.mp oldName
          obtain rfl : y = w := some.inj (entry.symm.trans (progress.known n w beforeName))
          exact .inr ⟨n, listed, .inr ⟨y, before, beforeName⟩, by rw [beforeName]; simpa using other⟩
        · exact absurd before ((progress.apart n listed oldName y entry).2 x)
    · refine .inr ⟨x, (progress.only x there').resolve_left old, .inl rfl, fun same => old ?_⟩
      rw [InTable, same]
      rfl
  · rintro (⟨y, there, linked⟩ | ⟨n, listed, together, other⟩)
    · exact ⟨y, progress.known x y there, (progress.links y).mpr (.inl linked)⟩
    · obtain ⟨z, entry⟩ := isSome_iff_exists.mp (progress.here n listed)
      have linked : LinkedTo d owner l' z := by
        refine (progress.links z).mpr (.inr ⟨n, listed, entry, ?_⟩)
        by_cases old : InTable l n
        · obtain ⟨w, before⟩ := isSome_iff_exists.mp old
          obtain rfl : z = w := some.inj (entry.symm.trans (progress.known n w before))
          rw [before] at other
          simpa using other
        · exact (progress.apart n listed old z entry).1
      rcases together with rfl | ⟨w, thereX, thereN⟩
      · exact ⟨z, entry, linked⟩
      · obtain rfl : z = w := some.inj (entry.symm.trans (progress.known n w thereN))
        exact ⟨z, progress.known x z thereX, linked⟩

theorem Unchanged.welcome (unchanged : Unchanged l l') : Welcome l' n ↔ Welcome l n := by
  constructor
  · rintro ⟨valid, unit⟩
    exact ⟨valid, by rwa [unchanged.units] at unit⟩
  · rintro ⟨valid, unit⟩
    exact ⟨valid, by rwa [unchanged.units]⟩

theorem Progress.unchanged (progress : Progress d owner l l' names)
    (alive : l'.registry.alive owner = true) (unchanged : Unchanged l' l'') :
    Progress d owner l l'' names := by
  obtain ⟨-, -, -, -, dependencies⟩ := unchanged.kept owner alive
  constructor
  case welcome => exact progress.welcome
  case known => simpa only [unchanged.units] using progress.known
  case only => simpa only [InTable, unchanged.units] using progress.only
  case here => simpa only [InTable, unchanged.units] using progress.here
  case apart => simpa only [unchanged.units] using progress.apart
  case length => simpa only [unchanged.units] using progress.length
  case links =>
    simpa only [unchanged.units, LinkedTo, Links.Linked, dependencies] using progress.links

theorem AllWelcome.next {front back : List CString} (all : AllWelcome l (front ++ n :: back))
    (progress : Progress d owner l l' front) : Welcome l' n := by
  obtain ⟨valid, unit⟩ := all.valid n (by simp)
  refine ⟨valid, ?_⟩
  by_cases there : InTable l' n
  · exact .inl there
  · have new : ¬ InTable l n := fun before => there ((progress.inTable n).mpr (.inl before))
    have unheard : n ∉ newNames l front := fun listed =>
      there ((progress.inTable n).mpr (.inr (mem_newNames.mp listed).1))
    have listed : n ∈ newNames l (front ++ n :: back) := mem_newNames.mpr ⟨by simp, new⟩
    have smaller : insert n (newNames l front) ⊆ newNames l (front ++ n :: back) := by
      intro x mem
      rcases Finset.mem_insert.mp mem with rfl | before
      · exact listed
      · obtain ⟨early, other⟩ := mem_newNames.mp before
        exact mem_newNames.mpr ⟨by simp [early], other⟩
    have card := Finset.card_le_card smaller
    rw [Finset.card_insert_of_notMem unheard] at card
    rcases all.room with none' | room
    · rw [none'] at listed
      cases listed
    · exact .inr ⟨unit.resolve_left new, by rw [progress.length]; omega⟩

theorem AllWelcome.welcome (all : AllWelcome l names) (listed : n ∈ names) : Welcome l n := by
  obtain ⟨valid, unit⟩ := all.valid n listed
  refine ⟨valid, ?_⟩
  by_cases old : InTable l n
  · exact .inl old
  · have new := mem_newNames.mpr ⟨listed, old⟩
    have card := Finset.card_pos.mpr ⟨n, new⟩
    rcases all.room with none' | room
    · rw [none'] at new
      cases new
    · exact .inr ⟨unit.resolve_left old, by omega⟩

theorem Welcome.alone (welcome : Welcome l n) : AllWelcome l [n] := by
  refine ⟨fun x listed => ?_, ?_⟩
  · obtain rfl := mem_singleton.mp listed
    exact ⟨welcome.valid, welcome.unit.imp id And.left⟩
  · by_cases old : InTable l n
    · refine .inl (Finset.eq_empty_of_forall_notMem fun x mem => ?_)
      obtain ⟨listed, new⟩ := mem_newNames.mp mem
      obtain rfl := mem_singleton.mp listed
      exact new old
    · have only : newNames l [n] ⊆ {n} := by
        intro x mem
        simpa using (mem_newNames.mp mem).1
      have card := Finset.card_le_card only
      rw [Finset.card_singleton] at card
      have room := (welcome.unit.resolve_left old).2
      exact .inr (by omega)

variable {names' : List CString}

theorem newNames_perm (perm : names'.Perm names) : newNames l names' = newNames l names := by
  ext x
  rw [mem_newNames, mem_newNames, perm.mem_iff]

theorem AllWelcome.perm (all : AllWelcome l names) (perm : names'.Perm names) : AllWelcome l names' :=
  ⟨fun x listed => all.valid x (perm.mem_iff.mp listed), by rw [newNames_perm perm]; exact all.room⟩

end

end

section

variable {U : Type} [DecidableEq U] {h : Host U} {l l' : Loader U} {u owner : U} {i n t : CString}
  {part : Option CString}

theorem addWord_run (allocates : Allocates h) (site : Site h u owner i part l) (d : UnitDependency)
    (names : said i part t = some n) :
    (Welcome l n ∧ ∃ l', addWord h u d t l = some (.ok (), l') ∧ Site h u owner i part l' ∧
        Adds d owner n l l') ∨
      ¬ Welcome l n ∧ ∃ e l', addWord h u d t l = some (.error e, l') ∧ Unchanged l l' := by
  obtain ⟨k, printed, names⟩ := bind_eq_some_iff.mp names
  have turn : ∀ {r l'}, unitAddDependencyByName h u d k none l = some (r, l') ->
      addWord h u d t l = some (r, l') := by
    intro r l' run
    unfold addWord
    rw [read_bind, site.id]
    refine orAbort_bind.mpr ⟨i, rfl, orAbort_bind.mpr ⟨k, ?_, run⟩⟩
    rw [site.instancePart, printed]
  rcases unitAddDependencyByName_run allocates site d names with
    ⟨welcome, l', run, site', adds⟩ | ⟨unwelcome, e, l', run, unchanged⟩
  · exact .inl ⟨welcome, l', turn run, site', adds⟩
  · exact .inr ⟨unwelcome, e, l', turn run, unchanged⟩

theorem addWords_run (allocates : Allocates h) (total : ∀ t, ∃ n, said i part t = some n)
    (d : UnitDependency) {start : Loader U} {before : List CString} (words : List CString)
    (site : Site h u owner i part l) (progress : Progress d owner start l before) :
    ∃ l', addWords h u d words l = some (.ok (), l') ∧ Site h u owner i part l' ∧
      (Progress d owner start l' (before ++ words.filterMap (said i part)) ∨
        ∃ front m back, words.filterMap (said i part) = front ++ m :: back ∧
          Progress d owner start l' (before ++ front) ∧ ¬ Welcome l' m) := by
  induction words generalizing l before with
  | nil => exact ⟨l, rfl, site, .inl (by simpa using progress)⟩
  | cons t rest ih =>
    obtain ⟨n, names⟩ := total t
    rw [filterMap_cons_some names]
    rcases addWord_run allocates site d names with
      ⟨welcome, l', run, site', adds⟩ | ⟨unwelcome, e, l', run, unchanged⟩
    · obtain ⟨last, ran, there, ended⟩ := ih site' (progress.step welcome adds)
      refine ⟨last, attempt_bind.mpr ⟨_, _, run, ran⟩, there, ?_⟩
      rcases ended with all | ⟨front, m, back, split, some', refused⟩
      · exact .inl (by simpa using all)
      · exact .inr ⟨n :: front, m, back, by rw [split, cons_append], by simpa using some', refused⟩
    · refine ⟨l', attempt_bind.mpr ⟨_, _, run, rfl⟩, site.unchanged unchanged,
        .inr ⟨[], n, _, rfl, ?_, ?_⟩⟩
      · simpa using progress.unchanged site.ends.1 unchanged
      · rwa [unchanged.welcome]

/-- The property of the setting: whatever unit_add_dependency_by_name() accepts at the end has been
added, and no other order of the words leads to other dependencies. -/
def NoneCancelled (h : Host U) (u owner : U) (i : CString) (part : Option CString) (d : UnitDependency)
    (rvalue : CString) (l : Loader U) : Prop :=
  (∃ l', configParseUnitDeps h u d rvalue l = some (.ok (), l') ∧
    ∀ t ∈ settingWords rvalue, ∀ n, said i part t = some n ->
      (∃ l'', addWord h u d t l' = some (.ok (), l'')) -> Added d owner l' n) ∧
  ∀ order : List CString, order.Perm (settingWords rvalue) ->
    ∃ l1 l2, configParseUnitDeps h u d rvalue l = some (.ok (), l1) ∧
      addWords h u d order l = some (.ok (), l2) ∧
      ∀ n, DependsOn d owner l1 n ↔ DependsOn d owner l2 n

section

variable {d : UnitDependency} {words : List CString}

variable {names rest : List CString}

section

variable (progress : Progress d owner l l' names)
include progress

section

omit [DecidableEq U]

theorem Progress.quiet (added : ∀ n ∈ names, Added d owner l n) (x : CString) :
    DependsOn d owner l' x ↔ DependsOn d owner l x := by
  rw [progress.dependsOn]
  refine or_iff_left_of_imp ?_
  rintro ⟨n, listed, together, other⟩
  obtain ⟨y, there, rfl | linked⟩ := added n listed
  · exact absurd there other
  · rcases together with rfl | ⟨w, thereX, thereN⟩
    · exact ⟨y, there, linked⟩
    · obtain rfl : y = w := some.inj (there.symm.trans thereN)
      exact ⟨y, thereX, linked⟩

theorem Progress.added (listed : n ∈ names) : Added d owner l' n := by
  obtain ⟨y, there⟩ := isSome_iff_exists.mp (progress.here n listed)
  refine ⟨y, there, or_iff_not_imp_left.mpr fun other => (progress.links y).mpr (.inr ?_)⟩
  exact ⟨n, listed, there, other⟩

theorem Progress.keeps (added : Added d owner l n) : Added d owner l' n := by
  obtain ⟨y, there, linked⟩ := added
  exact ⟨y, progress.known n y there, linked.imp id fun linked => (progress.links y).mpr (.inl linked)⟩

end

end

theorem order_from (listed : n ∈ words.filterMap (said i part)) :
    ∃ order : List CString, order.Perm words ∧ ∃ rest, order.filterMap (said i part) = n :: rest := by
  obtain ⟨t, word, names⟩ := mem_filterMap.mp listed
  refine ⟨t :: words.erase t, (perm_cons_erase word).symm, _, filterMap_cons_some names⟩

theorem first_accepted (allocates : Allocates h) (site : Site h u owner i part l)
    (total : ∀ t, ∃ n, said i part t = some n) (first : words.filterMap (said i part) = n :: rest)
    (welcome : Welcome l n) (other : l.registry.units.get n ≠ some owner) :
    ∃ l', addWords h u d words l = some (.ok (), l') ∧ DependsOn d owner l' n := by
  obtain ⟨l', run, -, ended⟩ := addWords_run allocates total d words site .refl
  refine ⟨l', run, ?_⟩
  rw [first] at ended
  rcases ended with all | ⟨front, m, back, split, some', refused⟩
  · exact (all.dependsOn n).mpr (.inr ⟨n, by simp, .inl rfl, other⟩)
  · cases front with
    | nil =>
      obtain ⟨rfl, -⟩ := List.cons.inj split
      have first : AllWelcome l ([] ++ n :: []) := welcome.alone
      exact absurd (first.next some') refused
    | cons x front =>
      obtain ⟨rfl, -⟩ := List.cons.inj split
      exact (some'.dependsOn n).mpr (.inr ⟨n, by simp, .inl rfl, other⟩)

theorem first_refused (allocates : Allocates h) (site : Site h u owner i part l)
    (total : ∀ t, ∃ n, said i part t = some n) (first : words.filterMap (said i part) = n :: rest)
    (unwelcome : ¬ Welcome l n) :
    ∃ l', addWords h u d words l = some (.ok (), l') ∧
      ∀ x, DependsOn d owner l' x ↔ DependsOn d owner l x := by
  obtain ⟨l', run, -, ended⟩ := addWords_run allocates total d words site .refl
  refine ⟨l', run, ?_⟩
  rw [first] at ended
  rcases ended with all | ⟨front, m, back, split, some', refused⟩
  · exact absurd (all.welcome.welcome (by simp)) unwelcome
  · cases front with
    | nil => exact some'.quiet (by simp)
    | cons x front =>
      obtain ⟨rfl, -⟩ := List.cons.inj split
      exact absurd (some'.welcome.welcome (by simp)) unwelcome

end

section

variable {d : UnitDependency} {rvalue : CString}

theorem noneCancelled_of_allWelcome (allocates : Allocates h) (site : Site h u owner i part l)
    (total : ∀ t, ∃ n, said i part t = some n)
    (all : AllWelcome l ((settingWords rvalue).filterMap (said i part))) :
    NoneCancelled h u owner i part d rvalue l := by
  have whole : ∀ order : List CString, order.Perm (settingWords rvalue) ->
      ∃ l', addWords h u d order l = some (.ok (), l') ∧
        Progress d owner l l' (order.filterMap (said i part)) := by
    intro order perm
    obtain ⟨l', run, -, ended⟩ := addWords_run allocates total d order site .refl
    refine ⟨l', run, ?_⟩
    rcases ended with progress | ⟨front, m, back, split, some', refused⟩
    · exact progress
    · have ordered := all.perm (perm.filterMap (said i part))
      rw [split] at ordered
      exact absurd (ordered.next some') refused
  obtain ⟨l1, run, progress⟩ := whole _ (.refl _)
  refine ⟨⟨l1, run, fun t word n names _ => ?_⟩, fun order perm => ?_⟩
  · exact progress.added (mem_filterMap.mpr ⟨t, word, names⟩)
  · obtain ⟨l2, run2, progress2⟩ := whole order perm
    refine ⟨l1, l2, run, run2, fun x => ?_⟩
    rw [progress.dependsOn, progress2.dependsOn]
    simp only [(perm.filterMap (said i part)).mem_iff]

theorem noneCancelled_of_added (allocates : Allocates h) (site : Site h u owner i part l)
    (total : ∀ t, ∃ n, said i part t = some n)
    (added : ∀ n ∈ (settingWords rvalue).filterMap (said i part), Welcome l n -> Added d owner l n) :
    NoneCancelled h u owner i part d rvalue l := by
  have some' : ∀ order : List CString, order.Perm (settingWords rvalue) ->
      ∃ l' front, addWords h u d order l = some (.ok (), l') ∧ Site h u owner i part l' ∧
        Progress d owner l l' front ∧ ∀ n ∈ front, Added d owner l n := by
    intro order perm
    have early : ∀ {front l'}, Progress d owner l l' front ->
        (∀ n ∈ front, n ∈ order.filterMap (said i part)) -> ∀ n ∈ front, Added d owner l n := by
      intro front l' progress among n listed
      refine added n ?_ (progress.welcome.welcome listed)
      exact (perm.filterMap (said i part)).mem_iff.mp (among n listed)
    obtain ⟨l', run, there, ended⟩ := addWords_run allocates total d order site .refl
    rcases ended with progress | ⟨front, m, back, split, progress, -⟩
    · exact ⟨l', _, run, there, progress, early progress fun n listed => listed⟩
    · refine ⟨l', _, run, there, progress, early progress fun n listed => ?_⟩
      rw [split]
      exact mem_append_left _ listed
  obtain ⟨l1, front, run, site1, progress, quiet⟩ := some' _ (.refl _)
  refine ⟨⟨l1, run, fun t word n names accepted => ?_⟩, fun order perm => ?_⟩
  · have listed : n ∈ (settingWords rvalue).filterMap (said i part) :=
      mem_filterMap.mpr ⟨t, word, names⟩
    have welcome : Welcome l1 n := by
      rcases addWord_run allocates site1 d names with ⟨welcome, -⟩ | ⟨-, e, l', refused, -⟩
      · exact welcome
      · obtain ⟨l'', accepted⟩ := accepted
        rw [refused] at accepted
        cases accepted
    by_cases early : n ∈ front
    · exact progress.keeps (quiet n early)
    · refine progress.keeps (added n listed ⟨welcome.valid, ?_⟩)
      rcases welcome.unit with known | ⟨loadable, room⟩
      · exact .inl ((progress.only n known).resolve_right early)
      · exact .inr ⟨loadable, by rw [progress.length] at room; omega⟩
  · obtain ⟨l2, _, run2, -, progress2, quiet2⟩ := some' order perm
    refine ⟨l1, l2, run, run2, fun x => ?_⟩
    rw [progress.quiet quiet, progress2.quiet quiet2]

theorem cancelled (allocates : Allocates h) (site : Site h u owner i part l)
    (total : ∀ t, ∃ n, said i part t = some n) {g : CString}
    (notAll : ¬ AllWelcome l ((settingWords rvalue).filterMap (said i part)))
    (listed : g ∈ (settingWords rvalue).filterMap (said i part)) (welcome : Welcome l g)
    (missing : ¬ Added d owner l g) : ¬ NoneCancelled h u owner i part d rvalue l := by
  rintro ⟨-, orders⟩
  obtain ⟨l1, run, -, ended⟩ := addWords_run allocates total d (settingWords rvalue) site .refl
  -- Every run is compared with that of the value itself.
  have agree : ∀ order : List CString, order.Perm (settingWords rvalue) -> ∀ {l'},
      addWords h u d order l = some (.ok (), l') ->
        ∀ n, DependsOn d owner l1 n ↔ DependsOn d owner l' n := by
    intro order perm l' ran
    obtain ⟨m1, m2, first, second, same⟩ := orders order perm
    rw [configParseUnitDeps, run] at first
    rw [ran] at second
    cases first
    cases second
    exact same
  rcases ended with all | ⟨front, m, back, split, progress, refused⟩
  · exact notAll all.welcome
  · have listedM : m ∈ (settingWords rvalue).filterMap (said i part) := by
      rw [split]
      simp
    obtain ⟨order, perm, rest, first⟩ := order_from listedM
    by_cases welcomeM : Welcome l m
    · have absent : ¬ InTable l1 m := fun there => refused ⟨welcomeM.valid, .inl there⟩
      have other : l.registry.units.get m ≠ some owner := by
        intro same
        exact absent ((progress.inTable m).mpr (.inl (by rw [InTable, same]; rfl)))
      obtain ⟨l2, run2, depends⟩ := first_accepted (d := d) allocates site total first welcomeM other
      obtain ⟨y, there, -⟩ := (agree order perm run2 m).mpr depends
      exact absent (by rw [InTable, there]; rfl)
    · obtain ⟨l2, run2, same⟩ := first_refused (d := d) allocates site total first welcomeM
      obtain ⟨order', perm', rest', first'⟩ := order_from listed
      have other : l.registry.units.get g ≠ some owner := fun same => missing ⟨owner, same, .inl rfl⟩
      obtain ⟨l3, run3, depends⟩ := first_accepted (d := d) allocates site total first' welcome other
      obtain ⟨y, there, linked⟩ := (same g).mp
        ((agree order perm run2 g).mp ((agree order' perm' run3 g).mpr depends))
      exact missing ⟨y, there, .inr linked⟩

/-- No name is cancelled if and only if each of them is accepted, or the accepted ones have nothing to
add. -/
theorem noneCancelled_iff (allocates : Allocates h) (site : Site h u owner i part l)
    (valid : unitNameIsValid i false = true) (d : UnitDependency) (rvalue : CString) :
    NoneCancelled h u owner i part d rvalue l ↔
      AllWelcome l ((settingWords rvalue).filterMap (said i part)) ∨
        ∀ n ∈ (settingWords rvalue).filterMap (said i part), Welcome l n -> Added d owner l n := by
  obtain ⟨e, dot⟩ := valid_dot valid
  have total := fun t => said_total dot part t
  constructor
  · intro holds
    by_contra neither
    rw [not_or] at neither
    obtain ⟨notAll, some'⟩ := neither
    push Not at some'
    obtain ⟨g, listed, welcome, missing⟩ := some'
    exact cancelled allocates site total notAll listed welcome missing holds
  · rintro (all | added)
    · exact noneCancelled_of_allWelcome allocates site total all
    · exact noneCancelled_of_added allocates site total added

end

end

noncomputable def bareHost : Host Nat where
  unitPath := []
  sysvinitPath := []
  unitPathCache := none
  openNoFollow _ := .fails enoent
  openDirectory _ := .error enoent
  openScript _ := .error enoent
  extras _ _ := ([], .ok ())
  reloading := false
  address l := sInf {v | l.registry.alive v = false}
  fuel := 1

theorem bareHost_allocates : Allocates bareHost := by
  intro l finite
  have unused : {v | l.registry.alive v = false}.Nonempty := by
    obtain ⟨v, free⟩ := finite.infinite_compl.nonempty
    exact ⟨v, by simpa using free⟩
  exact Nat.sInf_mem unused

def aService : CString := .ofString "a.service"

def alone : Loader Nat where
  registry := withStub .empty 0 aService .service none
  loadQueue := []
  fragmentPath _ := none

theorem aService_loadable : Loadable aService .service none :=
  ⟨by decide, by decide, by decide, by decide, by simp⟩

theorem alone_site : Site bareHost 0 0 aService none alone where
  settled := by
    have held : Held (fun _ _ => False) (.empty : Registry Nat) := ⟨.empty, fun _ _ => False.elim⟩
    exact (held.withStub rfl rfl aService_loadable).1
  follows := by decide
  id := by decide
  instancePart := by decide
  finite := by
    refine (Set.finite_singleton 0).subset fun v alive => ?_
    by_contra other
    simp [alone, withStub, Registry.empty, show v ≠ 0 from other] at alive

theorem alone_welcome {name : CString} (loadable : Loadable name .service none) : Welcome alone name :=
  ⟨loadable.valid, .inr ⟨⟨_, _, loadable⟩, by decide⟩⟩

theorem noneCancelled_two :
    NoneCancelled bareHost 0 0 aService none .after (.ofString "b.service 'c.service'") alone := by
  refine (noneCancelled_iff bareHost_allocates alone_site (by decide) _ _).mpr (.inl ?_)
  have names : (settingWords (.ofString "b.service 'c.service'")).filterMap (said aService none) =
      [.ofString "b.service", .ofString "c.service"] := by decide
  rw [names]
  refine ⟨fun n listed => ?_, .inr ?_⟩
  · have loadable : Loadable n .service none := by
      simp only [mem_cons, not_mem_nil, or_false] at listed
      rcases listed with rfl | rfl
      · exact ⟨by decide, by decide, by decide, by decide, by simp⟩
      · exact ⟨by decide, by decide, by decide, by decide, by simp⟩
    exact ⟨loadable.valid, .inr ⟨_, _, loadable⟩⟩
  · have card : (newNames alone [.ofString "b.service", .ofString "c.service"]).card ≤ 2 :=
      (Finset.card_filter_le _ _).trans (toFinset_card_le _)
    have length : alone.registry.units.length = 1 := rfl
    rw [length, managerMaxNames]
    omega

theorem name_cancelled :
    ¬ NoneCancelled bareHost 0 0 aService none .after (.ofString "foo b.service") alone := by
  obtain ⟨e, dot⟩ : ∃ e, strrchr aService.bytes '.'.toUInt8 = some e := valid_dot aService_loadable.valid
  have names : (settingWords (.ofString "foo b.service")).filterMap (said aService none) =
      [.ofString "foo", .ofString "b.service"] := by decide
  refine cancelled (g := .ofString "b.service") bareHost_allocates alone_site
    (fun t => said_total dot none t) ?_ ?_ ?_ ?_
  · rw [names]
    rintro ⟨valid, -⟩
    have wrong := (valid (.ofString "foo") (by simp)).1
    revert wrong
    decide
  · rw [names]
    simp
  · exact alone_welcome ⟨by decide, by decide, by decide, by decide, by simp⟩
  · rintro ⟨y, there, -⟩
    have free : alone.registry.units.get (.ofString "b.service") = none := by decide
    rw [free] at there
    cases there

end Systemd.Loading
