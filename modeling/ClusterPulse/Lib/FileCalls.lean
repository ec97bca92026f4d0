import ClusterPulse.Lib.FileTree
import ClusterPulse.Lib.Program

/-!
# Calls on a file tree

The calls of Python's `os` and `shutil` that look at a filesystem and remove entries, answered by a
file tree that nothing else changes meanwhile.  An environment chooses what a program cannot know:
which calls fail with an `OSError`, in which order a directory is listed, and how far a removal got
when it failed.  A path with a NUL is refused before the filesystem is asked.
-/

inductive FsError where
  | osError (strerror : String)
  | valueError (message : String)
deriving DecidableEq, Repr

inductive FsCall where
  | listdir (path : List Char)
  | isdir (path : List Char)
  | islink (path : List Char)
  | rmtree (path : List Char)
  | remove (path : List Char)

namespace FsCall

def path : FsCall → List Char
  | listdir path | isdir path | islink path | rmtree path | remove path => path

def Res : FsCall → Type
  | listdir _ => List (List Char)
  | isdir _ | islink _ => Bool
  | rmtree _ | remove _ => Unit

end FsCall

/-- A file tree, and how many calls were answered. -/
structure FsWorld where
  tree : FileTree
  calls : ℕ := 0

/-- What the answers depend on besides the tree; `n` counts the calls. -/
structure FsEnvironment where
  cwd : Location
  /-- How deep links may lead to links. -/
  maxLinks : ℕ
  fault : ℕ → Bool
  strerror : ℕ → String
  /-- Ranks the entries of a listing. -/
  order : ℕ → ℕ → ℕ
  /-- What a removal that failed left of the entries beneath its directory. -/
  left : ℕ → Location → Bool

namespace FsEnvironment

open FileTree

variable (env : FsEnvironment) (w : FsWorld)

def resolve (t : FileTree) (path : List Char) : Option Location :=
  t.resolve env.maxLinks env.cwd path

def lresolve (t : FileTree) (path : List Char) : Option Location :=
  t.lresolve env.maxLinks env.cwd path

def osError : FsError := .osError (env.strerror w.calls)

def embeddedNul : FsError := .valueError "embedded null byte"

def listdir (path : List Char) : Except FsError (List (List Char)) :=
  if '\x00' ∈ path then .error embeddedNul
  else match (env.resolve w.tree path).filter w.tree.isDir, env.fault w.calls with
    | some d, false => .ok (reorder (env.order w.calls) (w.tree.children d))
    | _, _ => .error (env.osError w)

/-- A failure counts as a "no". -/
def isdir (path : List Char) : Bool :=
  !decide ('\x00' ∈ path) && !env.fault w.calls && (env.resolve w.tree path).any w.tree.isDir

/-- A failure counts as a "no". -/
def islink (path : List Char) : Bool :=
  !decide ('\x00' ∈ path) && !env.fault w.calls && (env.lresolve w.tree path).any w.tree.isLink

/-- Remove a directory with all that lies beneath it; links are entries like any other. -/
def rmtree (path : List Char) : Except FsError Unit × FileTree :=
  if '\x00' ∈ path then (.error embeddedNul, w.tree)
  else match (env.lresolve w.tree path).filter w.tree.isDir with
    | none => (.error (env.osError w), w.tree)
    | some l =>
      -- the root stays, whatever became of its entries
      if env.fault w.calls || l = [] then
        (.error (env.osError w),
          w.tree.prune fun l' => !decide (Beneath l l') || env.left w.calls l')
      else (.ok (), w.tree.removeAt l)

/-- Remove a file or a link. -/
def remove (path : List Char) : Except FsError Unit × FileTree :=
  if '\x00' ∈ path then (.error embeddedNul, w.tree)
  else match (env.lresolve w.tree path).filter fun l => !w.tree.isDir l, env.fault w.calls with
    | some l, false => (.ok (), w.tree.removeAt l)
    | _, _ => (.error (env.osError w), w.tree)

/-- The answer to a call, and the tree after it. -/
def answer : (op : FsCall) → Except FsError op.Res × FileTree
  | .listdir path => (env.listdir w path, w.tree)
  | .isdir path => (.ok (env.isdir w path), w.tree)
  | .islink path => (.ok (env.islink w path), w.tree)
  | .rmtree path => env.rmtree w path
  | .remove path => env.remove w path

/-- The calls of a program whose exceptions are `ε`. -/
def handle {ε : Type} (raise : FsError → ε) : Handler FsCall FsCall.Res ε FsWorld := fun op w =>
  ((env.answer w op).1.mapError raise, ⟨(env.answer w op).2, w.calls + 1⟩)

/-! ## What a call does -/

theorem rmtree_tree (path : List Char) : (env.rmtree w path).2 = w.tree ∨
    ∃ l, env.lresolve w.tree path = some l ∧ ((env.rmtree w path).2 = w.tree.removeAt l ∨
      (env.rmtree w path).2 =
        w.tree.prune fun l' => !decide (Beneath l l') || env.left w.calls l') := by
  unfold rmtree
  split
  · exact .inl rfl
  · split
    · exact .inl rfl
    · rename_i l hl
      refine .inr ⟨l, (Option.filter_eq_some_iff.1 hl).1, ?_⟩
      split
      · exact .inr rfl
      · exact .inl rfl

theorem remove_tree (path : List Char) : (env.remove w path).2 = w.tree ∨
    ∃ l, env.lresolve w.tree path = some l ∧ (env.remove w path).2 = w.tree.removeAt l := by
  unfold remove
  split
  · exact .inl rfl
  · split
    · rename_i l hl _
      exact .inr ⟨l, (Option.filter_eq_some_iff.1 hl).1, rfl⟩
    · exact .inl rfl

variable {env w} {path : List Char}

/-- A call whose path names an entry beneath `d` removes entries beneath `d` only. -/
theorem answer_confined {op : FsCall} {d : Location}
    (h : ∀ l, env.lresolve w.tree op.path = some l → Beneath d l) :
    Confined d w.tree (env.answer w op).2 := by
  cases op with
  | listdir path => exact Confined.refl d _
  | isdir path => exact Confined.refl d _
  | islink path => exact Confined.refl d _
  | rmtree path =>
    show Confined d w.tree (env.rmtree w path).2
    rcases rmtree_tree env w path with htree | ⟨l, hl, htree | htree⟩ <;> rw [htree]
    · exact Confined.refl d _
    · exact confined_removeAt (h l hl)
    · refine confined_prune fun l' hl' => ?_
      have hnot : ¬ Beneath l l' := fun hbeneath => hl' ((h l hl).extend hbeneath.1)
      simp [hnot]
  | remove path =>
    show Confined d w.tree (env.remove w path).2
    rcases remove_tree env w path with htree | ⟨l, hl, htree⟩ <;> rw [htree]
    · exact Confined.refl d _
    · exact confined_removeAt (h l hl)

/-- Without a NUL in its path, a call fails with an `OSError` only. -/
theorem answer_error {op : FsCall} (hnul : '\x00' ∉ op.path) {e : FsError}
    (h : (env.answer w op).1 = .error e) : e = env.osError w := by
  cases op with
  | listdir path =>
    change env.listdir w path = .error e at h
    change '\x00' ∉ path at hnul
    unfold listdir at h
    rw [if_neg hnul] at h
    split at h <;> cases h
    rfl
  | isdir path => cases h
  | islink path => cases h
  | rmtree path =>
    change (env.rmtree w path).1 = .error e at h
    change '\x00' ∉ path at hnul
    unfold rmtree at h
    rw [if_neg hnul] at h
    split at h
    · cases h
      rfl
    · split at h <;> cases h
      rfl
  | remove path =>
    change (env.remove w path).1 = .error e at h
    change '\x00' ∉ path at hnul
    unfold remove at h
    rw [if_neg hnul] at h
    split at h <;> cases h
    rfl

theorem listdir_ok {names : List (List Char)} (h : env.listdir w path = .ok names) :
    ∃ d, env.resolve w.tree path = some d ∧ w.tree.node? d = some .dir ∧
      ∀ name, name ∈ names ↔ name ∈ w.tree.children d := by
  unfold listdir at h
  split at h
  · cases h
  · split at h <;> cases h
    rename_i d hd _
    obtain ⟨hresolve, hdir⟩ := Option.filter_eq_some_iff.1 hd
    exact ⟨d, hresolve, of_decide_eq_true hdir, fun name => mem_reorder⟩

theorem listdir_nul (h : '\x00' ∈ path) : env.listdir w path = .error embeddedNul := if_pos h

/-- A removal that succeeds leaves nothing at or beneath the entry that its path names. -/
theorem rmtree_ok (h : (env.rmtree w path).1 = .ok ()) : ∃ l, env.lresolve w.tree path = some l ∧
    (env.rmtree w path).2 = w.tree.removeAt l := by
  unfold rmtree at h ⊢
  split at h
  · cases h
  · rename_i hnul
    rw [if_neg hnul]
    split at h
    · cases h
    · rename_i l hl
      split at h
      · cases h
      · rename_i hfault
        refine ⟨l, (Option.filter_eq_some_iff.1 hl).1, ?_⟩
        rw [if_neg hfault]

theorem remove_ok (h : (env.remove w path).1 = .ok ()) : ∃ l, env.lresolve w.tree path = some l ∧
    (env.remove w path).2 = w.tree.removeAt l := by
  unfold remove at h ⊢
  split at h
  · cases h
  · rename_i hnul
    rw [if_neg hnul]
    split at h
    · rename_i l hl _
      exact ⟨l, (Option.filter_eq_some_iff.1 hl).1, rfl⟩
    · cases h

end FsEnvironment
