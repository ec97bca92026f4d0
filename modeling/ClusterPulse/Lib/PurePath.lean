import Mathlib.Tactic.Common

/-!
# Pure paths

A path as pathlib keeps it on a POSIX system: whether it is absolute, and its parts, without those
that say nothing.  The parts are the names that the system walks along, so nothing here depends on
the text of a path.
-/

/-- `PurePosixPath`; two slashes in front are one root like any other. -/
structure PurePath where
  absolute : Bool
  parts : List (List Char)
deriving DecidableEq

namespace PurePath

variable (p : PurePath)

/-- `Path(path)`. -/
def parse (path : List Char) : PurePath where
  absolute := decide (path.head? = some '/')
  parts := (path.splitOn '/').filter fun part => part ≠ [] ∧ part ≠ ['.']

/-- A path without parts is its own parent. -/
def parent : PurePath := { p with parts := p.parts.dropLast }

def name : List Char := p.parts.getLastD []

/-- `name.rfind('.')`. -/
def rfindDot (name : List Char) : Option ℕ :=
  (List.range name.length).reverse.find? fun i => name[i]? = some '.'

/-- Where the suffix of a name begins: at its last dot, unless that is its first or last character. -/
def suffixStart (name : List Char) : ℕ :=
  match rfindDot name with
  | some i => if 0 < i ∧ i + 1 < name.length then i else name.length
  | none => name.length

def suffix : List Char := p.name.drop (suffixStart p.name)

def stem : List Char := p.name.take (suffixStart p.name)

/-- Nothing where that raises a `ValueError`. -/
def withSuffix (suffix : List Char) : Option PurePath :=
  if p.stem = [] then none
  else if suffix ≠ [] ∧ ¬ (suffix.head? = some '.' ∧ 1 < suffix.length) then none
  else some { p with parts := p.parts.dropLast ++ [p.stem ++ suffix] }

/-- A system call refuses such a path. -/
def hasNul : Bool := p.parts.any fun part => decide ('\x00' ∈ part)

theorem stem_append_suffix : p.stem ++ p.suffix = p.name := List.take_append_drop _ _

theorem stem_eq_nil_iff : p.stem = [] ↔ p.name = [] := by
  unfold stem suffixStart
  constructor
  · intro h
    split at h
    · split_ifs at h with hi
      · have hlength := congrArg List.length h
        rw [List.length_take, List.length_nil] at hlength
        omega
      · simpa using h
    · simpa using h
  · intro h
    rw [h]
    exact List.take_nil

/-- A suffix is empty or begins with its dot. -/
theorem suffix_eq_nil_or : p.suffix = [] ∨ p.suffix.head? = some '.' := by
  unfold suffix suffixStart
  split
  · rename_i i hi
    split_ifs
    · right
      have hdot := List.find?_some hi
      rw [List.head?_drop]
      simpa using hdot
    · exact .inl (List.drop_length)
  · exact .inl (List.drop_length)

/-- `path.with_suffix(path.suffix + added)` adds to the name. -/
theorem withSuffix_suffix {added : List Char} (hdot : added.head? = some '.')
    (hlength : 1 < added.length) : p.withSuffix (p.suffix ++ added) =
      if p.name = [] then none else some { p with parts := p.parts.dropLast ++ [p.name ++ added] } := by
  have hhead : (p.suffix ++ added).head? = some '.' := by
    rcases p.suffix_eq_nil_or with h | h
    · rwa [h]
    · rw [List.head?_append, h]
      rfl
  have hvalid : ¬ (p.suffix ++ added ≠ [] ∧
      ¬ ((p.suffix ++ added).head? = some '.' ∧ 1 < (p.suffix ++ added).length)) := by
    rintro ⟨-, h⟩
    refine h ⟨hhead, ?_⟩
    rw [List.length_append]
    omega
  unfold withSuffix
  simp only [stem_eq_nil_iff]
  rw [if_neg hvalid, ← List.append_assoc, stem_append_suffix]

end PurePath
