import ClusterPulse.Lib.FileCalls
import ClusterPulse.Lib.PurePath

/-!
# Calls that change a file tree

Directories are made, files opened and written, entries moved, at the paths of pathlib.  An entry is
put where a directory is to hold it (`Takes`); a file is opened where its path leads, through the
links in the way (`landing`), while a directory is made and an entry moved at the path's own entry
(`placeOf`).

What leads to a directory depends on the directories and the links alone (`walk_dir`), so nobody who
writes files makes such a path lead elsewhere.
-/

namespace FileTree

variable {t t' : FileTree} {l l' d : Location} {node : FileNode}

/-! ## Putting an entry -/

theorem isName_of_node? (h : t.node? l = some node) : ∀ name ∈ l, IsName name := by
  by_cases hl : l = []
  · subst hl
    simp
  · exact (t.names _ ((node?_eq_some_iff hl).1 h)).2

/-- What lies beneath something lies in directories. -/
theorem isDir_of_beneath (h : t.node? l = some node) (hbeneath : Beneath d l) :
    t.node? d = some .dir := by
  obtain ⟨⟨rest, rfl⟩, hne⟩ := hbeneath
  induction rest using List.reverseRecOn generalizing node with
  | nil => exact absurd (List.append_nil d) hne
  | append_singleton rest name ih =>
    have hl : d ++ (rest ++ [name]) ≠ [] := by simp
    have hdrop : (d ++ (rest ++ [name])).dropLast = d ++ rest := by
      rw [← List.append_assoc, List.dropLast_concat]
    have hparent : t.node? (d ++ rest) = some .dir := by
      have hp := t.parents _ ((node?_eq_some_iff hl).1 h)
      rw [hdrop] at hp
      rcases hp with hroot | hmem
      · rw [hroot]
        rfl
      · by_cases hroot : d ++ rest = []
        · rw [hroot]
          rfl
        · exact (node?_eq_some_iff hroot).2 hmem
    by_cases hrest : rest = []
    · subst hrest
      rwa [List.append_nil] at hparent
    · exact ih hparent (by simpa using hrest)

/-- An entry can be put at `l`. -/
structure Takes (t : FileTree) (l : Location) : Prop where
  names : ∀ name ∈ l, IsName name
  parent : t.node? l.dropLast = some .dir
  notDir : t.node? l ≠ some .dir

instance (t : FileTree) (l : Location) : Decidable (t.Takes l) :=
  decidable_of_iff ((∀ name ∈ l, IsName name) ∧ t.node? l.dropLast = some .dir ∧
    t.node? l ≠ some .dir) ⟨fun h => ⟨h.1, h.2.1, h.2.2⟩, fun h => ⟨h.names, h.parent, h.notDir⟩⟩

theorem Takes.ne_nil (h : t.Takes l) : l ≠ [] := by
  rintro rfl
  exact h.notDir rfl

/-- The tree with `node` at `l`. -/
def put (t : FileTree) (l : Location) (node : FileNode) (h : t.Takes l) : FileTree where
  entries := (l, node) :: t.entries.filter fun e => e.1 ≠ l
  nodup := by
    rw [List.map_cons, List.nodup_cons]
    refine ⟨fun hmem => ?_, t.nodup.sublist (List.filter_sublist.map _)⟩
    obtain ⟨e, he, heq⟩ := List.mem_map.1 hmem
    exact of_decide_eq_true (List.mem_filter.1 he).2 heq
  names e he := by
    rcases List.mem_cons.1 he with rfl | he
    · exact ⟨h.ne_nil, h.names⟩
    · exact t.names e (List.mem_of_mem_filter he)
  parents e he := by
    -- no parent is replaced: a directory never is
    have hkept : ∀ l', t.node? l' = some .dir → l' = [] ∨ (l', FileNode.dir) ∈
        (l, node) :: t.entries.filter fun e => e.1 ≠ l := by
      intro l' hl'
      by_cases hroot : l' = []
      · exact .inl hroot
      · refine .inr (List.mem_cons_of_mem _ (List.mem_filter.2
          ⟨(node?_eq_some_iff hroot).1 hl', decide_eq_true fun heq => ?_⟩))
        subst heq
        exact h.notDir hl'
    rcases List.mem_cons.1 he with rfl | he
    · exact hkept _ h.parent
    · rcases t.parents e (List.mem_of_mem_filter he) with hroot | hmem
      · exact .inl hroot
      · by_cases hroot : e.1.dropLast = []
        · exact .inl hroot
        · exact hkept _ ((node?_eq_some_iff hroot).2 hmem)

theorem mem_put {h : t.Takes l} {e : Location × FileNode} :
    e ∈ (t.put l node h).entries ↔ e = (l, node) ∨ e ∈ t.entries ∧ e.1 ≠ l := by
  unfold put
  rw [List.mem_cons, List.mem_filter]
  simp

theorem node?_put {h : t.Takes l} :
    (t.put l node h).node? l' = if l' = l then some node else t.node? l' := by
  by_cases hroot : l' = []
  · subst hroot
    rw [if_neg h.ne_nil.symm]
    rfl
  · refine Option.ext fun n => ?_
    rw [node?_eq_some_iff hroot, mem_put]
    split_ifs with hl
    · subst hl
      simp [eq_comm]
    · rw [node?_eq_some_iff hroot]
      simp [hl]

/-- Where no directory is, only the entry itself is removed. -/
theorem node?_removeAt (hl : t.node? l ≠ some .dir) :
    (t.removeAt l).node? l' = if l' = l then none else t.node? l' := by
  by_cases hroot : l' = []
  · subst hroot
    have hne : [] ≠ l := by
      rintro rfl
      exact hl rfl
    rw [if_neg hne]
    rfl
  · refine Option.ext fun n => ?_
    rw [node?_eq_some_iff hroot, mem_removeAt]
    split_ifs with heq
    · subst heq
      simp
    · rw [node?_eq_some_iff hroot]
      refine and_iff_left_of_imp fun hmem hlead => ?_
      exact hl (isDir_of_beneath ((node?_eq_some_iff hroot).2 hmem) ⟨hlead, heq⟩)

/-! ## Walking on -/

theorem walkWith_cons {follow : Location → List Char → Option Location} (cur : Location)
    (name : List Char) (rest : List (List Char)) : t.walkWith follow cur (name :: rest) =
      if t.node? cur = some .dir then
        if name = [] ∨ name = ['.'] then t.walkWith follow cur rest
        else if name = ['.', '.'] then t.walkWith follow cur.dropLast rest
        else match t.node? (cur ++ [name]) with
          | none => none
          | some (.link target) => (follow cur target).bind fun next => t.walkWith follow next rest
          | some _ => t.walkWith follow (cur ++ [name]) rest
      else none := rfl

theorem walkWith_append {follow : Location → List Char → Option Location} (ys : List (List Char)) :
    ∀ (xs : List (List Char)) (cur : Location), t.walkWith follow cur (xs ++ ys) =
      (t.walkWith follow cur xs).bind fun d => t.walkWith follow d ys
  | [], cur => rfl
  | name :: rest, cur => by
    rw [List.cons_append, walkWith_cons, walkWith_cons]
    simp only [walkWith_append ys rest]
    split
    · split
      · rfl
      · split
        · rfl
        · split
          · rfl
          · cases follow cur _ <;> rfl
          · rfl
    · rfl

theorem walk_append (n : ℕ) (cur : Location) (xs ys : List (List Char)) :
    t.walk n cur (xs ++ ys) = (t.walk n cur xs).bind fun d => t.walk n d ys := by
  cases n <;> exact walkWith_append ys xs cur

/-- Where a walk ends in a directory, it started in one. -/
theorem isDir_of_walkWith {follow : Location → List Char → Option Location}
    {comps : List (List Char)} {cur : Location} (h : t.walkWith follow cur comps = some l)
    (hl : t.node? l = some .dir) : t.node? cur = some .dir := by
  cases comps with
  | nil =>
    obtain rfl := Option.some.inj h
    exact hl
  | cons name rest =>
    unfold walkWith at h
    by_contra hcur
    rw [if_neg hcur] at h
    cases h

/-- A walk to a directory passes directories and links only. -/
theorem walkWith_dir (hkept : ∀ l node, t.node? l = some node → (∀ content, node ≠ .file content) →
      t'.node? l = some node)
    {follow follow' : Location → List Char → Option Location}
    (hfollow : ∀ cur target next, follow cur target = some next → t.node? next = some .dir →
      follow' cur target = some next) (hl : t.node? l = some .dir) :
    ∀ (comps : List (List Char)) (cur : Location), t.walkWith follow cur comps = some l →
      t'.walkWith follow' cur comps = some l := by
  intro comps
  induction comps with
  | nil => exact fun _ hwalk => hwalk
  | cons name rest ih =>
    intro cur hwalk
    have hcur := isDir_of_walkWith hwalk hl
    unfold walkWith at hwalk ⊢
    rw [if_pos hcur] at hwalk
    rw [if_pos (hkept _ _ hcur fun _ h => by cases h)]
    by_cases hstay : name = [] ∨ name = ['.']
    · rw [if_pos hstay] at hwalk ⊢
      exact ih cur hwalk
    · rw [if_neg hstay] at hwalk ⊢
      by_cases hup : name = ['.', '.']
      · rw [if_pos hup] at hwalk ⊢
        exact ih _ hwalk
      · rw [if_neg hup] at hwalk ⊢
        cases hnode : t.node? (cur ++ [name]) with
        | none =>
          rw [hnode] at hwalk
          cases hwalk
        | some node =>
          rw [hnode] at hwalk
          cases node with
          | file content =>
            have hdir := isDir_of_walkWith hwalk hl
            rw [hnode] at hdir
            cases hdir
          | dir =>
            rw [hkept _ _ hnode fun _ h => by cases h]
            exact ih _ hwalk
          | link target =>
            rw [hkept _ _ hnode fun _ h => by cases h]
            obtain ⟨next, hnext, hwalk⟩ := Option.bind_eq_some_iff.1 hwalk
            exact Option.bind_eq_some_iff.2
              ⟨next, hfollow _ _ _ hnext (isDir_of_walkWith hwalk hl), ih next hwalk⟩

theorem walk_dir (hkept : ∀ l node, t.node? l = some node → (∀ content, node ≠ .file content) →
      t'.node? l = some node) (n : ℕ) {cur : Location} {comps : List (List Char)}
    (hwalk : t.walk n cur comps = some l) (hl : t.node? l = some .dir) :
    t'.walk n cur comps = some l := by
  induction n generalizing cur comps l with
  | zero => exact walkWith_dir hkept (fun _ _ _ hnext _ => hnext) hl comps cur hwalk
  | succ n ih =>
    refine walkWith_dir hkept (fun cur target next hnext hdir => ?_) hl comps cur hwalk
    by_cases htarget : target = []
    · rw [if_pos htarget] at hnext
      cases hnext
    · rw [if_neg htarget] at hnext ⊢
      exact ih hnext hdir

/-- A walk goes along names, and along what says nothing. -/
theorem nul_not_mem_of_walkWith {follow : Location → List Char → Option Location} :
    ∀ (comps : List (List Char)) (cur : Location), t.walkWith follow cur comps = some l →
      ∀ comp ∈ comps, '\x00' ∉ comp
  | [], _, _ => by simp
  | name :: rest, cur, hwalk => by
    rw [walkWith_cons] at hwalk
    rw [List.forall_mem_cons]
    split at hwalk
    · split at hwalk
      · rename_i hstay
        refine ⟨?_, nul_not_mem_of_walkWith rest cur hwalk⟩
        rcases hstay with rfl | rfl <;> decide
      · split at hwalk
        · rename_i hup
          refine ⟨?_, nul_not_mem_of_walkWith rest _ hwalk⟩
          rw [hup]
          decide
        · cases hnode : t.node? (cur ++ [name]) with
          | none =>
            rw [hnode] at hwalk
            cases hwalk
          | some node =>
            refine ⟨(isName_of_node? hnode name (by simp)).2.2.2.2, ?_⟩
            rw [hnode] at hwalk
            cases node with
            | file | dir => exact nul_not_mem_of_walkWith rest _ hwalk
            | link target =>
              obtain ⟨next, -, hwalk⟩ := Option.bind_eq_some_iff.1 hwalk
              exact nul_not_mem_of_walkWith rest next hwalk
    · cases hwalk

theorem nul_not_mem_of_walk {n : ℕ} {cur : Location} {comps : List (List Char)}
    (h : t.walk n cur comps = some l) : ∀ comp ∈ comps, '\x00' ∉ comp := by
  cases n <;> exact nul_not_mem_of_walkWith comps cur h

/-! ## The same directories and links -/

/-- The trees differ in their files only. -/
def SameDirs (t t' : FileTree) : Prop :=
  ∀ l node, (∀ content, node ≠ .file content) → (t.node? l = some node ↔ t'.node? l = some node)

theorem SameDirs.refl (t : FileTree) : SameDirs t t := fun _ _ _ => Iff.rfl

theorem SameDirs.symm (h : SameDirs t t') : SameDirs t' t := fun l node hnode => (h l node hnode).symm

theorem SameDirs.trans {t₁ t₂ t₃ : FileTree} (h : SameDirs t₁ t₂) (h' : SameDirs t₂ t₃) :
    SameDirs t₁ t₃ := fun l node hnode => (h l node hnode).trans (h' l node hnode)

/-- A file is put where there is none, or in the place of one. -/
theorem sameDirs_put {content : List UInt8} {h : t.Takes l}
    (hlink : ∀ target, t.node? l ≠ some (.link target)) :
    SameDirs t (t.put l (.file content) h) := by
  intro l' node hnode
  rw [node?_put]
  split_ifs with heq
  · subst heq
    constructor
    · intro hsome
      cases node with
      | file content => exact absurd rfl (hnode content)
      | dir => exact absurd hsome h.notDir
      | link target => exact absurd hsome (hlink target)
    · intro hsome
      exact absurd (Option.some.inj hsome).symm (hnode content)
  · rfl

theorem sameDirs_removeAt {content : List UInt8} (h : t.node? l = some (.file content)) :
    SameDirs t (t.removeAt l) := by
  intro l' node hnode
  rw [node?_removeAt (by rw [h]; exact nofun)]
  split_ifs with heq
  · subst heq
    rw [h]
    constructor
    · intro hsome
      exact absurd (Option.some.inj hsome).symm (hnode content)
    · exact nofun
  · rfl

theorem node?_prune {keep : Location → Bool} (hl : l ≠ []) :
    (t.prune keep).node? l = some node ↔ t.node? l = some node ∧ ∀ d, d <+: l → keep d = true := by
  rw [node?_eq_some_iff hl, node?_eq_some_iff hl, mem_prune]

theorem SameDirs.prune (h : SameDirs t t') (keep : Location → Bool) :
    SameDirs (t.prune keep) (t'.prune keep) := by
  intro l node hnode
  by_cases hl : l = []
  · subst hl
    rfl
  · rw [node?_prune hl, node?_prune hl, h l node hnode]

theorem SameDirs.walk_slash (h : SameDirs t t') (n : ℕ) (cur : Location)
    (comps : List (List Char)) : t'.walk n cur (comps ++ [[]]) = t.walk n cur (comps ++ [[]]) := by
  have hforth : ∀ {t t' : FileTree}, SameDirs t t' → ∀ d, t.walk n cur (comps ++ [[]]) = some d →
      t'.walk n cur (comps ++ [[]]) = some d := by
    intro t t' h d hd
    have hdir : t.node? d = some .dir := by
      rw [FileTree.walk_slash, Option.filter_eq_some_iff] at hd
      exact of_decide_eq_true hd.2
    exact walk_dir (fun l node hnode hfile => (h l node hfile).1 hnode) n hd hdir
  exact Option.ext fun d => ⟨hforth h.symm d, hforth h d⟩

/-! ## Where a path's entry is -/

/-- The location of the entry that a path names, whether it is there or not. -/
def placeOf (t : FileTree) (n : ℕ) (cur : Location) (comps : List (List Char)) : Option Location :=
  match comps.getLast? with
  | some name =>
    if IsName name then (t.walk n cur (comps.dropLast ++ [[]])).map (· ++ [name]) else none
  | none => none

/-- Where `open` finds or makes a file: at the path's own entry, or where its link leads. -/
def landing (t : FileTree) : ℕ → Location → List (List Char) → Option Location
  | 0, cur, comps => (t.placeOf 0 cur comps).filter fun l => !t.isLink l
  | n + 1, cur, comps => (t.placeOf (n + 1) cur comps).bind fun l =>
    match t.node? l with
    | some (.link target) => t.landing n (start l.dropLast target) (target.splitOn '/')
    | _ => some l

section Places

variable {n : ℕ} {cur : Location} {comps : List (List Char)} {name : List Char}

theorem placeOf_eq_some_iff : t.placeOf n cur comps = some l ↔ ∃ d name,
    comps.getLast? = some name ∧ IsName name ∧ t.walk n cur (comps.dropLast ++ [[]]) = some d ∧
      l = d ++ [name] := by
  unfold placeOf
  constructor
  · intro h
    split at h
    · rename_i name hname
      split_ifs at h with hvalid
      obtain ⟨d, hd, rfl⟩ := Option.map_eq_some_iff.1 h
      exact ⟨d, name, hname, hvalid, hd, rfl⟩
    · cases h
  · rintro ⟨d, name, hname, hvalid, hd, rfl⟩
    simp only [hname, if_pos hvalid, hd]
    rfl

/-- A slash at the end asks for a directory. -/
theorem walk_slash_eq_some_iff : t.walk n cur (comps ++ [[]]) = some d ↔
    t.walk n cur comps = some d ∧ t.node? d = some .dir := by
  rw [walk_slash, Option.filter_eq_some_iff, decide_eq_true_iff]

/-- The entry lies in a directory. -/
theorem takes_of_placeOf (h : t.placeOf n cur comps = some l) (hl : t.node? l ≠ some .dir) :
    t.Takes l := by
  obtain ⟨d, name, -, hname, hd, rfl⟩ := placeOf_eq_some_iff.1 h
  have hdir := (walk_slash_eq_some_iff.1 hd).2
  refine ⟨fun name' hmem => ?_, by rwa [List.dropLast_concat], hl⟩
  rcases List.mem_append.1 hmem with hmem | hmem
  · exact isName_of_node? hdir name' hmem
  · rwa [List.mem_singleton.1 hmem]

theorem landing_of_placeOf (h : t.placeOf n cur comps = some l)
    (hl : ∀ target, t.node? l ≠ some (.link target)) : t.landing n cur comps = some l := by
  cases n with
  | zero =>
    unfold landing
    rw [h]
    refine Option.filter_eq_some_iff.2 ⟨rfl, ?_⟩
    unfold isLink
    split
    · rename_i target htarget
      exact absurd htarget (hl target)
    · rfl
  | succ n =>
    unfold landing
    rw [h, Option.bind_some]
    split
    · rename_i target htarget
      exact absurd htarget (hl target)
    · rfl

/-- Where there is no link at the path's own entry, a file is opened there. -/
theorem placeOf_of_landing (h : t.landing n cur comps = some l)
    (hlink : ∀ l' target, t.placeOf n cur comps = some l' → t.node? l' ≠ some (.link target)) :
    t.placeOf n cur comps = some l := by
  cases hplace : t.placeOf n cur comps with
  | none => cases n <;> rw [landing, hplace] at h <;> cases h
  | some l' =>
    rw [landing_of_placeOf hplace fun target => hlink l' target hplace] at h
    exact h

/-- An entry that is there leads somewhere, unless it is a link. -/
theorem walk_of_placeOf (h : t.placeOf n cur comps = some l) (hnode : t.node? l = some node)
    (hlink : ∀ target, node ≠ .link target) : t.walk n cur comps = some l := by
  obtain ⟨d, name, hlast, hname, hd, rfl⟩ := placeOf_eq_some_iff.1 h
  obtain ⟨hwalk, hdir⟩ := walk_slash_eq_some_iff.1 hd
  have hcomps : comps = comps.dropLast ++ [name] := (List.dropLast_append_getLast? name hlast).symm
  rw [hcomps, walk_append, hwalk, Option.bind_some]
  have hstep : ∀ follow, t.walkWith follow d [name] = some (d ++ [name]) := by
    intro follow
    unfold walkWith
    rw [if_pos hdir, if_neg (not_or.2 ⟨hname.1, hname.2.1⟩), if_neg hname.2.2.1, hnode]
    cases node with
    | link target => exact absurd rfl (hlink target)
    | file | dir => rfl
  cases n <;> exact hstep _

/-- A path that leads somewhere has an entry, if its last part is a name. -/
theorem exists_placeOf_of_walk (h : t.walk n cur comps = some d) (hlast : comps.getLast? = some name)
    (hname : IsName name) : ∃ l node, t.placeOf n cur comps = some l ∧ t.node? l = some node := by
  have hcomps : comps = comps.dropLast ++ [name] := (List.dropLast_append_getLast? name hlast).symm
  rw [hcomps, walk_append] at h
  obtain ⟨c, hc, hstep⟩ := Option.bind_eq_some_iff.1 h
  have hentry : ∀ follow, t.walkWith follow c [name] = some d →
      t.node? c = some .dir ∧ ∃ node, t.node? (c ++ [name]) = some node := by
    intro follow hwalk
    unfold walkWith at hwalk
    split_ifs at hwalk with hdir hstay hup
    · exact absurd hstay (not_or.2 ⟨hname.1, hname.2.1⟩)
    · exact absurd hup hname.2.2.1
    · refine ⟨hdir, ?_⟩
      cases hnode : t.node? (c ++ [name]) with
      | none =>
        rw [hnode] at hwalk
        cases hwalk
      | some node => exact ⟨node, rfl⟩
  have hboth : t.node? c = some .dir ∧ ∃ node, t.node? (c ++ [name]) = some node := by
    cases n <;> exact hentry _ hstep
  obtain ⟨hdir, node, hnode⟩ := hboth
  exact ⟨c ++ [name], node, placeOf_eq_some_iff.2
    ⟨c, name, hlast, hname, walk_slash_eq_some_iff.2 ⟨hc, hdir⟩, rfl⟩, hnode⟩

end Places

end FileTree

/-! ## The calls -/

/-- Why `os.mkdir` fails. -/
inductive MkdirFailure where
  /-- There is an entry already. -/
  | fileExists
  /-- There is no directory to make it in. -/
  | fileNotFound
deriving DecidableEq

namespace FsEnvironment

open FileTree

variable (env : FsEnvironment) (t : FileTree) (path : PurePath)

def origin : Location := if path.absolute then [] else env.cwd

def leadsTo : Option Location := t.walk env.maxLinks (env.origin path) path.parts

def placeOf : Option Location := t.placeOf env.maxLinks (env.origin path) path.parts

/-- The directory that the path's entry lies in. -/
def holder : Option Location := t.walk env.maxLinks (env.origin path) (path.parts.dropLast ++ [[]])

def landing : Option Location := t.landing env.maxLinks (env.origin path) path.parts

/-- `path.is_dir()`. -/
def isDir : Bool := (env.leadsTo t path).any t.isDir

/-- `path.exists()`. -/
def exists? : Bool := (env.leadsTo t path).any fun l => (t.node? l).isSome

/-- `os.mkdir`.  A file or a loop of links in the way counts as nothing here: pathlib then tries the
parents first, and fails there. -/
def mkdir : Except MkdirFailure FileTree :=
  match env.placeOf t path with
  | some l =>
    if t.node? l = none then
      if h : t.Takes l then .ok (t.put l .dir h) else .error .fileNotFound
    else .error .fileExists
  | none => .error (if (env.leadsTo t path).isSome then .fileExists else .fileNotFound)

/-- `open` for writing, and what is written: nothing if there is no file to be. -/
def write (content : List UInt8) : Option FileTree :=
  (env.landing t path).bind fun l =>
    if h : t.Takes l then some (t.put l (.file content) h) else none

/-- `path.touch()`: what is there keeps its content. -/
def touch : Option FileTree :=
  if env.exists? t path then some t
  else (env.landing t path).bind fun l =>
    if (t.node? l).isSome then some t
    else if h : t.Takes l then some (t.put l (.file []) h)
    else none

/-- `open` for reading. -/
def read : Option (List UInt8) :=
  match (env.landing t path).bind t.node? with
  | some (.file content) => some content
  | _ => none

/-- `os.replace`, where `source` is no directory. -/
def replace (source target : PurePath) : Option FileTree :=
  (env.placeOf t source).bind fun l =>
    match t.node? l with
    | none | some .dir => none
    | some node => (env.placeOf t target).bind fun l' =>
      if l' = l then some t
      else if h : (t.removeAt l).Takes l' then some ((t.removeAt l).put l' node h)
      else none

/-! ## What a call does -/

variable {env t path} {t' : FileTree} {l d : Location} {content : List UInt8}
  {source target : PurePath}

theorem holder_eq_some_iff : env.holder t path = some d ↔
    env.leadsTo t path.parent = some d ∧ t.node? d = some .dir := walk_slash_eq_some_iff

theorem placeOf_eq_some_iff : env.placeOf t path = some l ↔
    IsName path.name ∧ ∃ d, env.holder t path = some d ∧ l = d ++ [path.name] := by
  unfold placeOf PurePath.name
  rw [FileTree.placeOf_eq_some_iff, List.getLastD_eq_getLast?]
  constructor
  · rintro ⟨d, name, hlast, hname, hd, rfl⟩
    rw [hlast]
    exact ⟨hname, d, hd, rfl⟩
  · rintro ⟨hname, d, hd, rfl⟩
    cases hlast : path.parts.getLast? with
    | none =>
      rw [hlast] at hname
      exact absurd rfl hname.1
    | some name =>
      rw [hlast] at hname
      exact ⟨d, name, rfl, hname, hd, rfl⟩

theorem placeOf_eq (hname : IsName path.name) (hd : env.holder t path = some d) :
    env.placeOf t path = some (d ++ [path.name]) := placeOf_eq_some_iff.2 ⟨hname, d, hd, rfl⟩

theorem holder_congr (h : SameDirs t t') (path : PurePath) : env.holder t' path = env.holder t path :=
  h.walk_slash _ _ _

/-- A directory is there already. -/
theorem mkdir_of_leadsTo (h : env.leadsTo t path = some d) :
    env.mkdir t path = .error .fileExists := by
  unfold mkdir
  cases hplace : env.placeOf t path with
  | none =>
    simp only [h]
    rfl
  | some l =>
    obtain ⟨d', name, hlast, hname, hd', rfl⟩ := FileTree.placeOf_eq_some_iff.1 hplace
    obtain ⟨l', node, hplace', hnode⟩ := exists_placeOf_of_walk h hlast hname
    obtain rfl := Option.some.inj (hplace.symm.trans hplace')
    dsimp only
    rw [if_neg (by rw [hnode]; exact nofun)]

theorem mkdir_ok (h : env.mkdir t path = .ok t') : ∃ l, t.node? l = none ∧
    ∃ htakes, t' = t.put l .dir htakes := by
  unfold mkdir at h
  split at h
  · rename_i l hl
    split_ifs at h with hnode htakes
    exact ⟨l, hnode, htakes, (Except.ok.inj h).symm⟩
  · cases h

theorem write_eq_some_iff : env.write t path content = some t' ↔
    ∃ l, env.landing t path = some l ∧ ∃ htakes, t' = t.put l (.file content) htakes := by
  unfold write
  rw [Option.bind_eq_some_iff]
  refine exists_congr fun l => and_congr_right fun _ => ?_
  split_ifs with htakes
  · rw [Option.some_inj, eq_comm]
    exact ⟨fun h => ⟨htakes, h⟩, fun ⟨_, h⟩ => h⟩
  · exact ⟨nofun, fun ⟨h, _⟩ => absurd h htakes⟩

theorem touch_some (h : env.touch t path = some t') : t' = t ∨
    ∃ l, env.landing t path = some l ∧ t.node? l = none ∧
      ∃ htakes, t' = t.put l (.file []) htakes := by
  unfold touch at h
  split_ifs at h with hexists
  · exact .inl (Option.some.inj h).symm
  · obtain ⟨l, hl, h⟩ := Option.bind_eq_some_iff.1 h
    split_ifs at h with hnode htakes
    · exact .inl (Option.some.inj h).symm
    · refine .inr ⟨l, hl, ?_, htakes, (Option.some.inj h).symm⟩
      simpa using hnode

theorem replace_some (h : env.replace t source target = some t') :
    ∃ l node, env.placeOf t source = some l ∧ t.node? l = some node ∧ node ≠ .dir ∧
      (t' = t ∨ ∃ l', env.placeOf t target = some l' ∧
        ∃ htakes, t' = (t.removeAt l).put l' node htakes) := by
  unfold replace at h
  obtain ⟨l, hl, h⟩ := Option.bind_eq_some_iff.1 h
  split at h
  · cases h
  · cases h
  · rename_i node hdir hnode
    refine ⟨l, node, hl, hnode, hdir, ?_⟩
    obtain ⟨l', hl', h⟩ := Option.bind_eq_some_iff.1 h
    split_ifs at h with hsame htakes
    · exact .inl (Option.some.inj h).symm
    · exact .inr ⟨l', hl', htakes, (Option.some.inj h).symm⟩

end FsEnvironment
