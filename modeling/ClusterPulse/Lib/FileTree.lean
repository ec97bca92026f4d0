import ClusterPulse.Lib.Table
import Mathlib.Data.List.Infix

/-!
# File trees

A `FileTree` is what lies beneath the root of a filesystem: at each location a file, a directory or
a symbolic link.  A `Location` names an entry by the entries above it, free of links; a path is a
text, and `walk` resolves it from a directory, following each link from the directory it lies in.

Trees are ordered by their entries: `t' ≤ t` when `t'` is `t` with some entries removed.  Removing
entries never makes a path lead elsewhere (`walk_mono`): it leads to the same location or nowhere.
-/

/-! ## Locations -/

/-- The names from the root down. -/
abbrev Location : Type := List (List Char)

/-- What an entry of a directory can be called. -/
def IsName (name : List Char) : Prop :=
  name ≠ [] ∧ name ≠ ['.'] ∧ name ≠ ['.', '.'] ∧ '/' ∉ name ∧ '\x00' ∉ name

instance : DecidablePred IsName := fun _ => inferInstanceAs (Decidable (_ ∧ _ ∧ _ ∧ _ ∧ _))

theorem IsName.head?_ne {name : List Char} (h : IsName name) : name.head? ≠ some '/' := fun hhead =>
  h.2.2.2.1 (List.mem_of_head? hhead)

/-- `l` lies strictly beneath `d`. -/
def Beneath (d l : Location) : Prop := d <+: l ∧ l ≠ d

instance (d l : Location) : Decidable (Beneath d l) := inferInstanceAs (Decidable (_ ∧ _))

theorem not_beneath_self (d : Location) : ¬ Beneath d d := fun h => h.2 rfl

theorem Beneath.extend {d l l' : Location} (h : Beneath d l) (hl : l <+: l') :
    Beneath d l' := by
  refine ⟨h.1.trans hl, fun heq => h.2 ?_⟩
  subst heq
  exact List.IsPrefix.eq_of_length_le hl h.1.length_le

theorem beneath_append {d : Location} {name : List Char} : Beneath d (d ++ [name]) :=
  ⟨List.prefix_append _ _, by simp⟩

/-! ## Trees -/

inductive FileNode where
  | file (content : List UInt8)
  | dir
  | link (target : List Char)
deriving DecidableEq

/-- The entries of a filesystem; each lies in a directory. -/
structure FileTree where
  entries : List (Location × FileNode)
  nodup : (entries.map Prod.fst).Nodup
  names : ∀ e ∈ entries, e.1 ≠ [] ∧ ∀ name ∈ e.1, IsName name
  parents : ∀ e ∈ entries, e.1.dropLast = [] ∨ (e.1.dropLast, FileNode.dir) ∈ entries

namespace FileTree

variable {t t' : FileTree} {l : Location}

/-- What is found at a location. -/
def node? (t : FileTree) (l : Location) : Option FileNode :=
  if l = [] then some .dir else (t.entries.find? fun e => e.1 = l).map Prod.snd

def isDir (t : FileTree) (l : Location) : Bool := t.node? l = some .dir

def isLink (t : FileTree) (l : Location) : Bool :=
  match t.node? l with
  | some (.link _) => true
  | _ => false

theorem node?_eq_some_iff {n : FileNode} (hl : l ≠ []) :
    t.node? l = some n ↔ (l, n) ∈ t.entries := by
  unfold node?
  rw [if_neg hl, Option.map_eq_some_iff]
  constructor
  · intro h
    obtain ⟨e, hfind, rfl⟩ := h
    obtain ⟨he, rfl⟩ := (find?_key_eq_some_iff t.nodup).1 hfind
    exact he
  · intro h
    exact ⟨(l, n), (find?_key_eq_some_iff t.nodup).2 ⟨h, rfl⟩, rfl⟩

/-- The names in the directory at `d`. -/
def children (t : FileTree) (d : Location) : List (List Char) :=
  t.entries.filterMap fun e => if e.1.dropLast = d then e.1.getLast? else none

theorem mem_children {d : Location} {name : List Char} :
    name ∈ t.children d ↔ ∃ n, (d ++ [name], n) ∈ t.entries := by
  unfold children
  rw [List.mem_filterMap]
  constructor
  · intro h
    obtain ⟨e, he, hname⟩ := h
    by_cases hd : e.1.dropLast = d
    · rw [if_pos hd] at hname
      have hl : d ++ [name] = e.1 := hd ▸ List.dropLast_append_getLast? name hname
      exact ⟨e.2, hl ▸ he⟩
    · rw [if_neg hd] at hname
      cases hname
  · intro h
    obtain ⟨n, hn⟩ := h
    exact ⟨_, hn, by simp⟩

theorem isName_of_mem_children {d : Location} {name : List Char} (h : name ∈ t.children d) :
    IsName name := by
  obtain ⟨n, hn⟩ := mem_children.1 h
  exact (t.names _ hn).2 name (by simp)

/-! ## Removing entries -/

instance : LE FileTree := ⟨fun t' t => t'.entries ⊆ t.entries⟩

theorem le_rfl' : t ≤ t := List.Subset.refl _

theorem le_trans' {t₁ t₂ t₃ : FileTree} (h : t₁ ≤ t₂) (h' : t₂ ≤ t₃) : t₁ ≤ t₃ :=
  List.Subset.trans h h'

theorem node?_of_le (h : t' ≤ t) {n : FileNode} (hn : t'.node? l = some n) :
    t.node? l = some n := by
  by_cases hl : l = []
  · subst hl
    exact hn
  · exact (node?_eq_some_iff hl).2 (h ((node?_eq_some_iff hl).1 hn))

/-- Remove every entry that `keep` rejects, with all that lies beneath it. -/
def prune (t : FileTree) (keep : Location → Bool) : FileTree where
  entries := t.entries.filter fun e => e.1.inits.all keep
  nodup := t.nodup.sublist (List.filter_sublist.map _)
  names e he := t.names e (List.mem_of_mem_filter he)
  parents e he := by
    rw [List.mem_filter] at he
    refine (t.parents e he.1).imp_right fun hparent => List.mem_filter.2 ⟨hparent, ?_⟩
    rw [List.all_eq_true] at he ⊢
    intro d hd
    rw [List.mem_inits] at hd
    exact he.2 d ((List.mem_inits _ _).2 (hd.trans (List.dropLast_prefix _)))

theorem mem_prune {keep : Location → Bool} {e : Location × FileNode} :
    e ∈ (t.prune keep).entries ↔ e ∈ t.entries ∧ ∀ d, d <+: e.1 → keep d = true := by
  unfold prune
  rw [List.mem_filter, List.all_eq_true]
  simp only [List.mem_inits]

theorem prune_le (t : FileTree) (keep : Location → Bool) : t.prune keep ≤ t :=
  fun _ he => (mem_prune.1 he).1

/-- Remove the entry at `l` with all that lies beneath it. -/
def removeAt (t : FileTree) (l : Location) : FileTree := t.prune fun l' => !decide (l <+: l')

theorem mem_removeAt {e : Location × FileNode} :
    e ∈ (t.removeAt l).entries ↔ e ∈ t.entries ∧ ¬ l <+: e.1 := by
  unfold removeAt
  rw [mem_prune]
  refine and_congr_right fun _ => ?_
  constructor
  · intro h
    simpa using h e.1 (List.prefix_refl _)
  · intro h d hd
    have hd : ¬ l <+: d := fun hl => h (hl.trans hd)
    simpa using hd

/-- From `t` to `t'`, entries beneath `d` were removed and nothing else happened. -/
structure Confined (d : Location) (t t' : FileTree) : Prop where
  le : t' ≤ t
  kept : ∀ e ∈ t.entries, ¬ Beneath d e.1 → e ∈ t'.entries

theorem Confined.refl (d : Location) (t : FileTree) : Confined d t t := ⟨le_rfl', fun _ he _ => he⟩

theorem Confined.trans {d : Location} {t₁ t₂ t₃ : FileTree} (h : Confined d t₁ t₂)
    (h' : Confined d t₂ t₃) : Confined d t₁ t₃ :=
  ⟨le_trans' h'.le h.le, fun e he hd => h'.kept e (h.kept e he hd) hd⟩

theorem Confined.node?_eq {d : Location} (h : Confined d t t') (hl : ¬ Beneath d l) :
    t'.node? l = t.node? l := by
  cases hn : t.node? l with
  | none =>
    cases hn' : t'.node? l with
    | none => rfl
    | some n => rw [node?_of_le h.le hn'] at hn; cases hn
  | some n =>
    by_cases hroot : l = []
    · subst hroot
      exact hn
    · exact (node?_eq_some_iff hroot).2 (h.kept _ ((node?_eq_some_iff hroot).1 hn) hl)

theorem confined_prune {d : Location} {keep : Location → Bool}
    (h : ∀ l, ¬ Beneath d l → keep l = true) : Confined d t (t.prune keep) :=
  ⟨prune_le _ _, fun _ he hd =>
    mem_prune.2 ⟨he, fun l hl => h l fun hbeneath => hd (hbeneath.extend hl)⟩⟩

theorem confined_removeAt {d : Location} (h : Beneath d l) : Confined d t (t.removeAt l) := by
  refine confined_prune fun l' hl' => ?_
  have hnot : ¬ l <+: l' := fun hprefix => hl' (h.extend hprefix)
  simpa using hnot

/-- A directory that lost all of its entries is empty. -/
theorem children_eq_nil {d : Location} (h : Confined d t t')
    (hgone : ∀ name ∈ t.children d, ∀ e ∈ t'.entries, ¬ d ++ [name] <+: e.1) :
    t'.children d = [] := by
  refine List.eq_nil_iff_forall_not_mem.2 fun name hname => ?_
  obtain ⟨n, hn⟩ := mem_children.1 hname
  exact hgone name (mem_children.2 ⟨n, h.le hn⟩) _ hn (List.prefix_refl _)

/-! ## Paths -/

/-- `os.path.join`. -/
def join (path entry : List Char) : List Char :=
  if entry.head? = some '/' then entry
  else if path = [] ∨ path.getLast? = some '/' then path ++ entry
  else path ++ '/' :: entry

/-- Where the walk along a path starts. -/
def start (cur : Location) (path : List Char) : Location :=
  if path.head? = some '/' then [] else cur

/-- Walk from `cur` along the components of a path, each of them but the last a directory; `follow`
resolves the link with the given target in the given directory. -/
def walkWith (t : FileTree) (follow : Location → List Char → Option Location) :
    Location → List (List Char) → Option Location
  | cur, [] => some cur
  | cur, name :: rest =>
    if t.node? cur = some .dir then
      if name = [] ∨ name = ['.'] then t.walkWith follow cur rest
      else if name = ['.', '.'] then t.walkWith follow cur.dropLast rest
      else match t.node? (cur ++ [name]) with
        | none => none
        | some (.link target) => (follow cur target).bind fun next => t.walkWith follow next rest
        | some _ => t.walkWith follow (cur ++ [name]) rest
    else none

/-- Walk along a path, links leading to links at most `n` deep. -/
def walk (t : FileTree) : ℕ → Location → List (List Char) → Option Location
  | 0 => t.walkWith fun _ _ => none
  | n + 1 => t.walkWith fun cur target =>
    if target = [] then none else t.walk n (start cur target) (target.splitOn '/')

/-- The location that a path leads to from `cur`. -/
def resolve (t : FileTree) (n : ℕ) (cur : Location) (path : List Char) : Option Location :=
  if path = [] then none else t.walk n (start cur path) (path.splitOn '/')

/-- The location of the entry that a path names: its last name is not followed. -/
def lresolve (t : FileTree) (n : ℕ) (cur : Location) (path : List Char) : Option Location :=
  match (path.splitOn '/').getLast? with
  | none => none
  | some name =>
    if IsName name then
      (t.walk n (start cur path) ((path.splitOn '/').dropLast ++ [[]])).bind fun d =>
        (t.node? (d ++ [name])).map fun _ => d ++ [name]
    else t.resolve n cur path

/-- A path that still leads somewhere leads to where it led before. -/
theorem walkWith_mono (h : t' ≤ t) {follow follow' : Location → List Char → Option Location}
    (hfollow : ∀ cur target next, follow' cur target = some next → follow cur target = some next) :
    ∀ (comps : List (List Char)) (cur : Location), t'.walkWith follow' cur comps = some l →
      t.walkWith follow cur comps = some l
  | [], _, hwalk => hwalk
  | name :: rest, cur, hwalk => by
    unfold walkWith at hwalk ⊢
    by_cases hdir : t'.node? cur = some .dir
    · rw [if_pos hdir] at hwalk
      rw [if_pos (node?_of_le h hdir)]
      split at hwalk
      · rename_i hstay
        rw [if_pos hstay]
        exact walkWith_mono h hfollow rest cur hwalk
      · rename_i hstay
        rw [if_neg hstay]
        split at hwalk
        · rename_i hup
          rw [if_pos hup]
          exact walkWith_mono h hfollow rest _ hwalk
        · rename_i hup
          rw [if_neg hup]
          cases hnode : t'.node? (cur ++ [name]) with
          | none =>
            rw [hnode] at hwalk
            cases hwalk
          | some node =>
            rw [hnode] at hwalk
            rw [node?_of_le h hnode]
            cases node with
            | file content => exact walkWith_mono h hfollow rest _ hwalk
            | dir => exact walkWith_mono h hfollow rest _ hwalk
            | link target =>
              obtain ⟨next, hnext, hwalk⟩ := Option.bind_eq_some_iff.1 hwalk
              exact Option.bind_eq_some_iff.2
                ⟨next, hfollow _ _ _ hnext, walkWith_mono h hfollow rest next hwalk⟩
    · rw [if_neg hdir] at hwalk
      cases hwalk

theorem walk_mono (h : t' ≤ t) (n : ℕ) {cur : Location} {comps : List (List Char)}
    (hwalk : t'.walk n cur comps = some l) : t.walk n cur comps = some l := by
  induction n generalizing cur comps l with
  | zero => exact walkWith_mono h (fun _ _ _ hnext => hnext) comps cur hwalk
  | succ n ih =>
    refine walkWith_mono h (fun cur target next hnext => ?_) comps cur hwalk
    by_cases htarget : target = []
    · rw [if_pos htarget] at hnext
      cases hnext
    · rw [if_neg htarget] at hnext ⊢
      exact ih hnext

theorem resolve_mono (h : t' ≤ t) {n : ℕ} {cur : Location} {path : List Char}
    (hresolve : t'.resolve n cur path = some l) : t.resolve n cur path = some l := by
  unfold resolve at hresolve ⊢
  by_cases hpath : path = []
  · rw [if_pos hpath] at hresolve
    cases hresolve
  · rw [if_neg hpath] at hresolve ⊢
    exact walk_mono h n hresolve

/-- A slash at the end asks for a directory. -/
theorem walkWith_slash {follow : Location → List Char → Option Location} :
    ∀ (comps : List (List Char)) (cur : Location), t.walkWith follow cur (comps ++ [[]]) =
      (t.walkWith follow cur comps).filter fun d => t.node? d = some .dir
  | [], cur => by
    by_cases hdir : t.node? cur = some .dir <;> simp [walkWith, hdir, Option.filter]
  | name :: rest, cur => by
    rw [List.cons_append]
    unfold walkWith
    simp only [walkWith_slash rest]
    split
    · split
      · rfl
      · split
        · rfl
        · split
          · rfl
          · cases follow cur _ <;> rfl
          · rfl
    · rfl

theorem walk_slash (n : ℕ) (cur : Location) (comps : List (List Char)) :
    t.walk n cur (comps ++ [[]]) =
      (t.walk n cur comps).filter fun d => t.node? d = some .dir := by
  cases n <;> exact walkWith_slash comps cur

/-! ### Joined paths -/

variable {path entry : List Char}

theorem start_join (hpath : path ≠ []) (hentry : IsName entry) (cur : Location) :
    start cur (join path entry) = start cur path := by
  obtain ⟨c, rest, rfl⟩ := List.exists_cons_of_ne_nil hpath
  unfold start join
  rw [if_neg hentry.head?_ne]
  split <;> rfl

/-- Joining replaces the empty component after a final slash, or adds one component. -/
theorem splitOn_join (hpath : path ≠ []) (hentry : IsName entry) :
    ∃ comps, (join path entry).splitOn '/' = comps ++ [entry] ∧
      (path.splitOn '/' = comps ∨ path.splitOn '/' = comps ++ [[]]) := by
  have hsingle : entry.splitOn '/' = [entry] := List.splitOn_eq_singleton hentry.2.2.2.1
  unfold join
  rw [if_neg hentry.head?_ne]
  by_cases hlast : path.getLast? = some '/'
  · obtain ⟨init, rfl⟩ := List.getLast?_eq_some_iff.1 hlast
    refine ⟨init.splitOn '/', ?_, .inr ?_⟩
    · rw [if_pos (.inr hlast), List.append_assoc, List.singleton_append,
        List.splitOn_append_cons_self, hsingle]
    · rw [List.splitOn_append_cons_self]
      rfl
  · refine ⟨path.splitOn '/', ?_, .inl rfl⟩
    rw [if_neg (by simp [hpath, hlast]), List.splitOn_append_cons_self, hsingle]

/-- An entry joined to a path names the entry of that name in the directory the path leads to. -/
theorem lresolve_join (hpath : path ≠ []) (hentry : IsName entry) {n : ℕ} {cur : Location}
    (h : t.lresolve n cur (join path entry) = some l) :
    ∃ d, t.resolve n cur path = some d ∧ l = d ++ [entry] ∧ ∃ node, t.node? l = some node := by
  obtain ⟨comps, hjoin, hcomps⟩ := splitOn_join hpath hentry
  unfold lresolve at h
  rw [hjoin, List.getLast?_concat, List.dropLast_concat] at h
  simp only [if_pos hentry, start_join hpath hentry, Option.bind_eq_some_iff,
    Option.map_eq_some_iff] at h
  obtain ⟨d, hwalk, node, hnode, rfl⟩ := h
  refine ⟨d, ?_, rfl, node, hnode⟩
  unfold resolve
  rw [if_neg hpath]
  rcases hcomps with hcomps | hcomps
  · rw [walk_slash, Option.filter_eq_some_iff] at hwalk
    rw [hcomps]
    exact hwalk.1
  · rw [hcomps]
    exact hwalk

theorem nul_not_mem_join (hpath : '\x00' ∉ path) (hentry : IsName entry) :
    '\x00' ∉ join path entry := by
  have hentry := hentry.2.2.2.2
  unfold join
  split
  · exact hentry
  · split <;> simp [hpath, hentry]

end FileTree
