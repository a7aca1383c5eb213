import Systemd.Basic.PathNames
import Systemd.Units.Path

set_option autoImplicit false

namespace Systemd.Groups

open List

inductive Errno where
  | einval
  deriving DecidableEq

def colon : UInt8 := ':'.toUInt8

-- Both results are asked for; a caller that passes NULL for one of them gets the other all the same.
def cgSplitSpec (spec : CString) : Except Errno (Option CString × Option CString) :=
  if spec.bytes.head? = some '/'.toUInt8 then
    .ok (none, some spec)
  else
    match strchr spec.bytes colon with
    | none =>
      if '/'.toUInt8 ∈ spec.bytes ∨ spec.bytes = [] then .error .einval else .ok (some spec, none)
    | some e =>
      if spec.bytes[e + 1]? ≠ some '/'.toUInt8 ∨ e = 0 ∨ '/'.toUInt8 ∈ spec.bytes.take e then
        .error .einval
      else
        .ok (some (.ofBuffer (strndup spec.bytes e)), some (.ofBuffer (spec.bytes.drop (e + 1))))

def cgJoinSpec (controller path : CString) : Except Errno CString :=
  if pathIsAbsolute path.bytes = false ∨ controller.bytes = [] ∨ colon ∈ controller.bytes ∨
      '/'.toUInt8 ∈ controller.bytes then
    .error .einval
  else
    .ok (.ofBuffer (controller.bytes ++ colon :: path.bytes))

structure Speaks (spec controller path : CString) : Prop where
  written : spec.bytes = controller.bytes ++ colon :: path.bytes
  named : controller.bytes ≠ []
  colonFree : colon ∉ controller.bytes
  slashFree : '/'.toUInt8 ∉ controller.bytes
  absolute : path.bytes.head? = some '/'.toUInt8

variable {path spec controller : CString}

theorem speaks_iff_joins : Speaks spec controller path ↔ cgJoinSpec controller path = .ok spec := by
  have clean : 0 ∉ controller.bytes ++ colon :: path.bytes := by
    have visible : (0 : UInt8) ≠ colon := by decide
    simp [controller.terminated, path.terminated, visible]
  constructor
  · intro s
    have accepted : ¬(pathIsAbsolute path.bytes = false ∨ controller.bytes = [] ∨
        colon ∈ controller.bytes ∨ '/'.toUInt8 ∈ controller.bytes) := by
      simp [pathIsAbsolute, s.absolute, s.named, s.colonFree, s.slashFree]
    rw [cgJoinSpec, if_neg accepted, ← s.written, CString.ofBuffer_self]
  · intro joined
    rw [cgJoinSpec] at joined
    split at joined
    next => cases joined
    next accepted =>
      simp only [pathIsAbsolute, not_or, Bool.not_eq_false, beq_iff_eq] at accepted
      obtain ⟨absolute, named, colonFree, slashFree⟩ := accepted
      injection joined with same
      refine ⟨?_, named, colonFree, slashFree, absolute⟩
      rw [← same, CString.ofBuffer_bytes clean]

theorem Speaks.starts (s : Speaks spec controller path) : spec.bytes.head? ≠ some '/'.toUInt8 := by
  rw [s.written]
  cases name : controller.bytes with
  | nil => exact absurd name s.named
  | cons first rest =>
    intro begins
    simp only [cons_append, head?_cons, Option.some.injEq] at begins
    exact s.slashFree (by simp [name, begins])

theorem Speaks.splits (s : Speaks spec controller path) :
    cgSplitSpec spec = .ok (some controller, some path) := by
  have first : strchr spec.bytes colon = some controller.bytes.length := by
    rw [s.written]
    exact strchr_first s.colonFree
  have before : spec.bytes.take controller.bytes.length = controller.bytes := by simp [s.written]
  have after : spec.bytes.drop (controller.bytes.length + 1) = path.bytes := by simp [s.written]
  have accepted : ¬(spec.bytes[controller.bytes.length + 1]? ≠ some '/'.toUInt8 ∨
      controller.bytes.length = 0 ∨ '/'.toUInt8 ∈ spec.bytes.take controller.bytes.length) := by
    rw [← head?_drop, after, before]
    simp [s.absolute, s.named, s.slashFree]
  rw [cgSplitSpec, if_neg s.starts, first]
  simp only
  rw [if_neg accepted, strndup, before, after, CString.ofBuffer_self, CString.ofBuffer_self]

theorem splits_speaks (split : cgSplitSpec spec = .ok (some controller, some path)) :
    Speaks spec controller path := by
  rw [cgSplitSpec] at split
  split at split
  next => simp at split
  next =>
    cases first : strchr spec.bytes colon with
    | none =>
      simp only [first] at split
      split at split <;> simp at split
    | some e =>
      simp only [first] at split
      split at split
      next => cases split
      next accepted =>
        simp only [not_or, not_not] at accepted
        obtain ⟨absolute, pos, slashFree⟩ := accepted
        simp only [Except.ok.injEq, Prod.mk.injEq, Option.some.injEq] at split
        obtain ⟨before, after⟩ := split
        obtain ⟨colonFree, through⟩ := strchr_split first
        have name : controller.bytes = spec.bytes.take e := by
          rw [← before, strndup]
          exact CString.ofBuffer_bytes fun inside => spec.terminated (mem_of_mem_take inside)
        have rest : path.bytes = spec.bytes.drop (e + 1) := by
          rw [← after]
          exact CString.ofBuffer_bytes fun inside => spec.terminated (mem_of_mem_drop inside)
        have long : e + 1 < spec.bytes.length := (List.getElem?_eq_some_iff.mp absolute).1
        exact {
          written := by
            have halves := take_append_drop (e + 1) spec.bytes
            rw [through, append_assoc] at halves
            rw [name, rest]
            exact halves.symm
          named := by
            rw [name]
            intro empty
            have sized := congrArg List.length empty
            simp only [length_take, length_nil] at sized
            omega
          colonFree := name ▸ colonFree
          slashFree := name ▸ slashFree
          absolute := by rw [rest, head?_drop, absolute] }

theorem cgJoinSpec_cgSplitSpec (spec controller path : CString) :
    cgJoinSpec controller path = .ok spec ↔ cgSplitSpec spec = .ok (some controller, some path) := by
  constructor
  · intro joined
    exact (speaks_iff_joins.mpr joined).splits
  · intro split
    exact speaks_iff_joins.mp (splits_speaks split)

end Systemd.Groups
