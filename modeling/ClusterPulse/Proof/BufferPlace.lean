import ClusterPulse.Proof.AgentDisk

/-!
# Where the buffer file is

The buffer file lies in the same filesystem that the executor clears.  `BufferAt` says in which
directory it is and what is in it; then the steps of the buffer do what `FileStep.handle` says of a
file apart (`fileStep_at`).  An executor leaves it there if it cannot reach the directory, nor what
leads to it (`OutOfReach`), and otherwise can only take it away: `Site` is what is then left of an
invariant about its content.
-/

namespace ClusterPulse

open Prog FileTree FileBuffer

/-! ## The temporary file -/

section Tmp

variable {path tmp : PurePath} {env : FsEnvironment} {t : FileTree} {d l : Location}

/-- The name of the temporary file. -/
def tmpName (path : PurePath) : List Char := path.name ++ tmpSuffix

theorem tmpPath_eq (h : path.name ≠ []) : tmpPath path =
    .ok { path with parts := path.parts.dropLast ++ [tmpName path] } := by
  unfold tmpPath
  rw [path.withSuffix_suffix rfl (by decide), if_neg h]
  rfl

theorem tmpPath_ok (h : tmpPath path = .ok tmp) :
    tmp = { path with parts := path.parts.dropLast ++ [tmpName path] } := by
  by_cases hname : path.name = []
  · unfold tmpPath at h
    rw [path.withSuffix_suffix rfl (by decide), if_pos hname] at h
    cases h
  · rw [tmpPath_eq hname] at h
    exact (Except.ok.inj h).symm

theorem tmpName_ne (path : PurePath) : tmpName path ≠ path.name := fun h => by
  have hlength := congrArg List.length h
  simp [tmpName, tmpSuffix] at hlength

theorem isName_tmpName (h : IsName path.name) : IsName (tmpName path) := by
  have hlength : 4 < (tmpName path).length := by
    have hpos := List.length_pos_iff.2 h.1
    simp only [tmpName, tmpSuffix, List.length_append, List.length_cons, List.length_nil]
    omega
  refine ⟨?_, ?_, ?_, ?_, ?_⟩
  · rintro hnil
    rw [hnil] at hlength
    cases hlength
  · intro hdot
    rw [hdot] at hlength
    simp at hlength
  · intro hdots
    rw [hdots] at hlength
    simp at hlength
  · unfold tmpName
    rw [List.mem_append, not_or]
    exact ⟨h.2.2.2.1, by decide⟩
  · unfold tmpName
    rw [List.mem_append, not_or]
    exact ⟨h.2.2.2.2, by decide⟩

/-- It lies beside the buffer file. -/
theorem placeOf_tmp (h : tmpPath path = .ok tmp) (hl : env.placeOf t tmp = some l) :
    ∃ d, env.holder t path = some d ∧ l = d ++ [tmpName path] := by
  obtain rfl := tmpPath_ok h
  obtain ⟨-, d, hd, rfl⟩ := FsEnvironment.placeOf_eq_some_iff.1 hl
  refine ⟨d, ?_, by simp [PurePath.name]⟩
  unfold FsEnvironment.holder at hd ⊢
  rwa [List.dropLast_concat] at hd

theorem placeOf_tmp_eq (h : tmpPath path = .ok tmp) (hname : IsName path.name)
    (hd : env.holder t path = some d) : env.placeOf t tmp = some (d ++ [tmpName path]) := by
  obtain rfl := tmpPath_ok h
  refine FsEnvironment.placeOf_eq_some_iff.2 ⟨?_, d, ?_, by simp [PurePath.name]⟩
  · simpa [PurePath.name] using isName_tmpName hname
  · unfold FsEnvironment.holder at hd ⊢
    rwa [List.dropLast_concat]

/-- A path that is held by a directory has no NUL in it. -/
theorem hasNul_of_holder (hname : IsName path.name) (hd : env.holder t path = some d) :
    path.hasNul = false := by
  have hparts : path.parts = path.parts.dropLast ++ [path.name] := by
    unfold PurePath.name at hname ⊢
    rw [List.getLastD_eq_getLast?] at hname ⊢
    cases hlast : path.parts.getLast? with
    | none =>
      rw [hlast] at hname
      exact absurd rfl hname.1
    | some name => exact (List.dropLast_append_getLast? name hlast).symm
  have hwalk := nul_not_mem_of_walk hd
  unfold PurePath.hasNul
  rw [List.any_eq_false]
  intro part hpart
  rw [hparts, List.mem_append, List.mem_singleton] at hpart
  obtain hpart | rfl := hpart
  · simpa using hwalk part (List.mem_append_left _ hpart)
  · simpa using hname.2.2.2.2

end Tmp

/-! ## A file of known content -/

/-- The path leads to the directory `d`, in which the buffer file and the temporary file are. -/
structure BufferAt (env : FsEnvironment) (path : PurePath) (t : FileTree) (d : Location)
    (file : BufferFile) : Prop where
  holder : env.holder t path = some d
  main : t.node? (d ++ [path.name]) = some (.file file.main)
  tmp : t.node? (d ++ [tmpName path]) = file.tmp.map .file

section BufferAt

variable {env : FsEnvironment} {path tmp : PurePath} {t : FileTree} {d : Location}
  {file : BufferFile} {content : List UInt8}

theorem BufferAt.isName (h : BufferAt env path t d file) : IsName path.name :=
  isName_of_node? h.main path.name (by simp)

theorem BufferAt.isDir (h : BufferAt env path t d file) : t.node? d = some .dir :=
  (FsEnvironment.holder_eq_some_iff.1 h.holder).2

theorem BufferAt.hasNul (h : BufferAt env path t d file) : path.hasNul = false :=
  hasNul_of_holder h.isName h.holder

theorem BufferAt.placeOf (h : BufferAt env path t d file) :
    env.placeOf t path = some (d ++ [path.name]) := FsEnvironment.placeOf_eq h.isName h.holder

theorem BufferAt.read (h : BufferAt env path t d file) : env.read t path = some file.main := by
  have hlanding : env.landing t path = some (d ++ [path.name]) :=
    landing_of_placeOf h.placeOf fun target => by
      rw [h.main]
      exact nofun
  unfold FsEnvironment.read
  rw [hlanding, Option.bind_some, h.main]

theorem BufferAt.exists? (h : BufferAt env path t d file) : env.exists? t path = true := by
  have hleads : env.leadsTo t path = some (d ++ [path.name]) :=
    walk_of_placeOf h.placeOf h.main nofun
  unfold FsEnvironment.exists?
  rw [hleads, Option.any_some, h.main]
  rfl

theorem BufferAt.tmp_ne (h : BufferAt env path t d file) (node : FileNode)
    (hnode : ∀ content, node ≠ .file content) : t.node? (d ++ [tmpName path]) ≠ some node := by
  rw [h.tmp]
  intro hsome
  obtain ⟨content, -, hcontent⟩ := Option.map_eq_some_iff.1 hsome
  exact hnode content hcontent.symm

section Tmp

variable (h : BufferAt env path t d file) (htmp : tmpPath path = .ok tmp)
include h htmp

theorem BufferAt.placeOf_tmp : env.placeOf t tmp = some (d ++ [tmpName path]) :=
  placeOf_tmp_eq htmp h.isName h.holder

theorem BufferAt.tmp_hasNul : tmp.hasNul = false := by
  obtain ⟨hname, d', hd', -⟩ := FsEnvironment.placeOf_eq_some_iff.1 (h.placeOf_tmp htmp)
  exact hasNul_of_holder hname hd'

/-- Whatever is written is in the temporary file. -/
theorem BufferAt.write (content : List UInt8) : ∃ t', env.write t tmp content = some t' ∧
    SameDirs t t' ∧ BufferAt env path t' d { file with tmp := some content } := by
  have hplace := h.placeOf_tmp htmp
  have hlink : ∀ target, t.node? (d ++ [tmpName path]) ≠ some (.link target) := fun target =>
    h.tmp_ne _ nofun
  have htakes : t.Takes (d ++ [tmpName path]) := takes_of_placeOf hplace (h.tmp_ne _ nofun)
  have hsame : SameDirs t (t.put _ (.file content) htakes) := sameDirs_put hlink
  refine ⟨_, FsEnvironment.write_eq_some_iff.2 ⟨_, landing_of_placeOf hplace hlink, htakes, rfl⟩,
    hsame, ?_, ?_, ?_⟩
  · rw [FsEnvironment.holder_congr hsame]
    exact h.holder
  · rw [node?_put, if_neg fun heq => tmpName_ne path (by simpa using heq.symm)]
    exact h.main
  · rw [node?_put, if_pos rfl]
    rfl

/-- What was in the temporary file is in the buffer file. -/
theorem BufferAt.replace (hleft : file.tmp = some content) :
    ∃ t', env.replace t tmp path = some t' ∧ SameDirs t t' ∧
      BufferAt env path t' d ⟨content, none⟩ := by
  have htmpNode : t.node? (d ++ [tmpName path]) = some (.file content) := by
    rw [h.tmp, hleft]
    rfl
  have hne : d ++ [path.name] ≠ d ++ [tmpName path] := fun heq =>
    tmpName_ne path (by simpa using heq.symm)
  have hremoved : SameDirs t (t.removeAt (d ++ [tmpName path])) := sameDirs_removeAt htmpNode
  have hnode : ∀ l, (t.removeAt (d ++ [tmpName path])).node? l =
      if l = d ++ [tmpName path] then none else t.node? l := fun l =>
    node?_removeAt (by rw [htmpNode]; exact nofun)
  have hmain : (t.removeAt (d ++ [tmpName path])).node? (d ++ [path.name]) =
      some (.file file.main) := by
    rw [hnode, if_neg hne, h.main]
  have htakes : (t.removeAt (d ++ [tmpName path])).Takes (d ++ [path.name]) := by
    refine takes_of_placeOf (n := env.maxLinks) (FsEnvironment.placeOf_eq h.isName
      ((FsEnvironment.holder_congr hremoved path).trans h.holder)) ?_
    rw [hmain]
    exact nofun
  have hput : SameDirs (t.removeAt (d ++ [tmpName path]))
      ((t.removeAt (d ++ [tmpName path])).put _ (.file content) htakes) := by
    refine sameDirs_put fun target => ?_
    rw [hmain]
    exact nofun
  have hsame := hremoved.trans hput
  refine ⟨_, ?_, hsame, ?_, ?_, ?_⟩
  · unfold FsEnvironment.replace
    rw [h.placeOf_tmp htmp, Option.bind_some]
    simp only [htmpNode]
    rw [h.placeOf, Option.bind_some, if_neg hne, dif_pos htakes]
  · rw [FsEnvironment.holder_congr hsame]
    exact h.holder
  · rw [node?_put, if_pos rfl]
  · rw [node?_put, if_neg hne.symm, hnode, if_pos rfl]
    rfl

end Tmp

end BufferAt

/-! ## Out of the executor's reach -/

section Reach

variable {env : FsEnvironment} {clearable : Finset String} {path : PurePath} {t t' : FileTree}
  {d l : Location} {file : BufferFile}

/-- The directory that an allowed path leads to. -/
def cleared (env : FsEnvironment) (t : FileTree) (allowed : String) : Option Location :=
  (env.resolve t allowed.toList).filter fun c => t.isDir c

/-- The executor may remove what is at `l`. -/
def Exposed (env : FsEnvironment) (clearable : Finset String) (t : FileTree) (l : Location) : Prop :=
  ∃ allowed ∈ clearable, ∃ c ∈ cleared env t allowed, Beneath c l

instance (env : FsEnvironment) (clearable : Finset String) (t : FileTree) :
    DecidablePred (Exposed env clearable t) := fun l =>
  inferInstanceAs (Decidable (∃ allowed ∈ clearable, ∃ c ∈ cleared env t allowed, Beneath c l))

/-- What is left where the executor has removed all it may. -/
def spared (env : FsEnvironment) (clearable : Finset String) (t : FileTree) : FileTree :=
  t.prune fun l => !decide (Exposed env clearable t l)

/-- The executor gets neither to what is in the directory `d` nor to what the path passes on its way
there. -/
structure OutOfReach (env : FsEnvironment) (clearable : Finset String) (path : PurePath)
    (t : FileTree) (d : Location) : Prop where
  leads : env.holder (spared env clearable t) path = some d
  apart : ∀ allowed ∈ clearable, ∀ c ∈ cleared env t allowed, ¬ c <+: d

theorem cleared_eq_some_iff {allowed : String} {c : Location} : cleared env t allowed = some c ↔
    env.resolve t allowed.toList = some c ∧ t.node? c = some .dir := by
  unfold cleared
  rw [Option.filter_eq_some_iff]
  unfold isDir
  rw [decide_eq_true_iff]

theorem cleared_of_le (h : t' ≤ t) {allowed : String} {c : Location} (hc : c ∈ cleared env t' allowed) :
    c ∈ cleared env t allowed := by
  obtain ⟨hresolve, hdir⟩ := cleared_eq_some_iff.1 hc
  exact cleared_eq_some_iff.2 ⟨resolve_mono h hresolve, node?_of_le h hdir⟩

theorem Exposed.of_le (h : t' ≤ t) (hl : Exposed env clearable t' l) : Exposed env clearable t l := by
  obtain ⟨allowed, hallowed, c, hc, hbeneath⟩ := hl
  exact ⟨allowed, hallowed, c, cleared_of_le h hc, hbeneath⟩

/-- A directory that a path leads to does not depend on any files. -/
theorem cleared_congr (h : SameDirs t t') (allowed : String) :
    cleared env t' allowed = cleared env t allowed := by
  have hwalk : ∀ t, cleared env t allowed =
      if allowed.toList = [] then none
      else t.walk env.maxLinks (start env.cwd allowed.toList) (allowed.toList.splitOn '/' ++ [[]]) := by
    intro t
    unfold cleared FsEnvironment.resolve FileTree.resolve
    split_ifs
    · rfl
    · rw [walk_slash]
      rfl
  rw [hwalk, hwalk, h.walk_slash]

theorem exposed_congr (h : SameDirs t t') : Exposed env clearable t' l ↔ Exposed env clearable t l := by
  unfold Exposed
  simp only [cleared_congr h]

theorem OutOfReach.not_exposed (hreach : OutOfReach env clearable path t d) (name : List Char) :
    ¬ Exposed env clearable t (d ++ [name]) := by
  rintro ⟨allowed, hallowed, c, hc, hlead, hne⟩
  obtain heq | hlead := List.prefix_concat_iff.1 hlead
  · exact hne heq.symm
  · exact hreach.apart allowed hallowed c hc hlead

/-- Changing files changes nothing about it. -/
theorem OutOfReach.congr (hreach : OutOfReach env clearable path t d) (h : SameDirs t t') :
    OutOfReach env clearable path t' d := by
  have hkeep : (fun l => !decide (Exposed env clearable t' l)) =
      fun l => !decide (Exposed env clearable t l) := by
    funext l
    rw [decide_eq_decide.2 (exposed_congr h)]
  refine ⟨?_, fun allowed hallowed c hc => ?_⟩
  · unfold spared
    rw [hkeep, FsEnvironment.holder_congr (h.prune _)]
    exact hreach.leads
  · rw [cleared_congr h] at hc
    exact hreach.apart allowed hallowed c hc

/-- Without the opt-in, nothing is in the executor's reach. -/
theorem outOfReach_empty (h : env.holder t path = some d) : OutOfReach env ∅ path t d := by
  have hexposed : ∀ l, ¬ Exposed env ∅ t l := fun l hl => by
    obtain ⟨allowed, hallowed, -⟩ := hl
    exact Finset.notMem_empty allowed hallowed
  refine ⟨?_, fun allowed hallowed => absurd hallowed (Finset.notMem_empty allowed)⟩
  have hdirs : SameDirs t (spared env ∅ t) := by
    intro l node _
    by_cases hl : l = []
    · subst hl
      rfl
    · unfold spared
      rw [node?_prune hl]
      simp [hexposed]
  rw [FsEnvironment.holder_congr hdirs]
  exact h

/-! ### While the executor removes entries -/

section Removed

variable (hremoved : RemovedBeneath env clearable t t')
include hremoved

theorem RemovedBeneath.exposed {e : Location × FileNode} (he : e ∈ t.entries)
    (hgone : e ∉ t'.entries) : Exposed env clearable t e.1 := by
  obtain ⟨allowed, hallowed, c, hc, hbeneath⟩ := hremoved.beneath e he hgone
  have hnode : t.node? e.1 = some e.2 := (node?_eq_some_iff (t.names e he).1).2 he
  exact ⟨allowed, hallowed, c, cleared_eq_some_iff.2 ⟨hc, isDir_of_beneath hnode hbeneath⟩, hbeneath⟩

/-- What was to be spared is there, and is still to be spared. -/
theorem RemovedBeneath.spared_le : spared env clearable t ≤ spared env clearable t' := by
  intro e he
  obtain ⟨he, hkeep⟩ := mem_prune.1 he
  have hunexposed : ∀ l, l <+: e.1 → ¬ Exposed env clearable t l := fun l hl => by
    simpa using hkeep l hl
  refine mem_prune.2 ⟨?_, fun l hl => ?_⟩
  · by_contra hgone
    exact hunexposed e.1 (List.prefix_refl _) (hremoved.exposed he hgone)
  · have hstill : ¬ Exposed env clearable t' l := fun hl' =>
      hunexposed l hl (hl'.of_le hremoved.le)
    simpa using hstill

theorem OutOfReach.removed (hreach : OutOfReach env clearable path t d) :
    OutOfReach env clearable path t' d :=
  ⟨walk_mono hremoved.spared_le _ hreach.leads,
    fun allowed hallowed c hc => hreach.apart allowed hallowed c (cleared_of_le hremoved.le hc)⟩

/-- The directory keeps its entries. -/
theorem OutOfReach.node?_eq (hreach : OutOfReach env clearable path t d) (name : List Char) :
    t'.node? (d ++ [name]) = t.node? (d ++ [name]) := by
  have hl : d ++ [name] ≠ [] := by simp
  refine Option.ext fun node => ⟨node?_of_le hremoved.le, fun hnode => ?_⟩
  rw [node?_eq_some_iff hl] at hnode ⊢
  by_contra hgone
  exact hreach.not_exposed name (hremoved.exposed hnode hgone)

theorem BufferAt.removed (h : BufferAt env path t d file) (hreach : OutOfReach env clearable path t d) :
    BufferAt env path t' d file where
  holder := walk_mono (prune_le _ _) _ (hreach.removed hremoved).leads
  main := (hreach.node?_eq hremoved _).trans h.main
  tmp := (hreach.node?_eq hremoved _).trans h.tmp

end Removed

end Reach

/-- The buffer file is in `d`, where the executor of the process does not get. -/
structure Sheltered (env : FsEnvironment) (settings : AgentProcessSettings) (t : FileTree)
    (d : Location) (file : BufferFile) : Prop where
  place : BufferAt env settings.path t d file
  outOfReach : OutOfReach env settings.clearable settings.path t d

theorem Sheltered.removed {env : FsEnvironment} {settings : AgentProcessSettings} {t t' : FileTree}
    {d : Location} {file : BufferFile} (h : Sheltered env settings t d file)
    (hremoved : RemovedBeneath env settings.clearable t t') : Sheltered env settings t' d file :=
  ⟨h.place.removed hremoved h.outOfReach, h.outOfReach.removed hremoved⟩

/-- Without the opt-in, wherever the buffer file is. -/
theorem sheltered_of_disabled {env : FsEnvironment} {settings : AgentProcessSettings} {t : FileTree}
    {d : Location} {file : BufferFile} (hopt : settings.remediationEnabled = false)
    (h : BufferAt env settings.path t d file) : Sheltered env settings t d file := by
  refine ⟨h, ?_⟩
  rw [show settings.clearable = ∅ from if_neg (ne_true_of_eq_false hopt)]
  exact outOfReach_empty h.holder

/-! ## The buffer on a node without faults -/

section Node

variable {ω : Type} {env : NodeEnvironment ω} {path tmp : PurePath} {w : Node ω} {d : Location}
  {file : BufferFile} {j : PydanticJson} {content : List UInt8}

open NodeProgram (ask onFile)

/-- From `w` to `w'`, only files were changed on the node. -/
structure FilesOnly (w w' : Node ω) : Prop where
  dirs : SameDirs w.disk.tree w'.disk.tree
  outside : w'.outside = w.outside

theorem FilesOnly.trans {w₁ w₂ w₃ : Node ω} (h : FilesOnly w₁ w₂) (h' : FilesOnly w₂ w₃) :
    FilesOnly w₁ w₃ := ⟨h.dirs.trans h'.dirs, h'.outside.trans h.outside⟩

/-- Nothing was changed. -/
structure SameNode (w w' : Node ω) : Prop where
  tree : w'.disk.tree = w.disk.tree
  outside : w'.outside = w.outside

theorem SameNode.trans {w₁ w₂ w₃ : Node ω} (h : SameNode w₁ w₂) (h' : SameNode w₂ w₃) :
    SameNode w₁ w₃ := ⟨h'.tree.trans h.tree, h'.outside.trans h.outside⟩

section Ask

variable (env : NodeEnvironment ω) (w : Node ω) (call : PathCall)

theorem ask_answer : ((ask call).run env.handle w).1 = (env.pathAnswer w.calls w.disk.tree call).1 := by
  rw [run_ask]
  rfl

theorem ask_tree : ((ask call).run env.handle w).2.disk.tree =
    (env.pathAnswer w.calls w.disk.tree call).2 := by
  rw [run_ask]
  rfl

theorem ask_outside : ((ask call).run env.handle w).2.outside = w.outside := by
  rw [run_ask]
  rfl

end Ask

theorem sameNode_path {call : PathCall}
    (h : (env.pathAnswer w.calls w.disk.tree call).2 = w.disk.tree) :
    SameNode w ((ask call).run env.handle w).2 :=
  ⟨(ask_tree env w call).trans h, ask_outside env w call⟩

theorem fileSteps_writeText_eq (htmp : tmpPath path = .ok tmp) (content : List UInt8) :
    env.fileSteps path (.writeText content) w =
      (ask (.writeText tmp content)).run env.handle w := by
  unfold NodeEnvironment.fileSteps stepAt
  rw [htmp]
  rfl

theorem fileSteps_replace_eq (htmp : tmpPath path = .ok tmp) :
    env.fileSteps path .replace w = (ask (.replace tmp path)).run env.handle w := by
  unfold NodeEnvironment.fileSteps stepAt
  rw [htmp]
  rfl

section Steps

variable (h : BufferAt env.fs path w.disk.tree d file) (hfault : env.fileFault w.calls = none)
include h hfault

theorem fileSteps_readText : (env.fileSteps path .readText w).1 = .ok (.ok file.main) ∧
    SameNode w (env.fileSteps path .readText w).2 := by
  have hanswer : env.pathAnswer w.calls w.disk.tree (.readText path) =
      (.ok (.ok file.main), w.disk.tree) := by
    unfold NodeEnvironment.pathAnswer NodeEnvironment.answer
    simp [h.hasNul, h.read, hfault]
  show ((ask (.readText path)).run env.handle w).1 = _ ∧ _
  rw [ask_answer, hanswer]
  exact ⟨rfl, sameNode_path (by rw [hanswer])⟩

theorem fileSteps_writeText (content : List UInt8) :
    (env.fileSteps path (.writeText content) w).1 = .ok (.ok ()) ∧
    FilesOnly w (env.fileSteps path (.writeText content) w).2 ∧
    BufferAt env.fs path (env.fileSteps path (.writeText content) w).2.disk.tree d
      { file with tmp := some content } := by
  obtain ⟨tmp, htmp⟩ : ∃ tmp, tmpPath path = .ok tmp := ⟨_, tmpPath_eq h.isName.1⟩
  obtain ⟨t', hwrite, hdirs, hafter⟩ := h.write htmp content
  have hanswer : env.pathAnswer w.calls w.disk.tree (.writeText tmp content) =
      (.ok (.ok ()), t') := by
    unfold NodeEnvironment.pathAnswer NodeEnvironment.answer NodeEnvironment.outcome
    simp [h.tmp_hasNul htmp, hwrite, hfault]
  rw [fileSteps_writeText_eq htmp]
  refine ⟨?_, ⟨?_, ask_outside env w _⟩, ?_⟩
  · rw [ask_answer, hanswer]
  · rwa [ask_tree, hanswer]
  · rwa [ask_tree, hanswer]

theorem fileSteps_replace (hleft : file.tmp = some content) :
    (env.fileSteps path .replace w).1 = .ok (.ok ()) ∧
    FilesOnly w (env.fileSteps path .replace w).2 ∧
    BufferAt env.fs path (env.fileSteps path .replace w).2.disk.tree d ⟨content, none⟩ := by
  obtain ⟨tmp, htmp⟩ : ∃ tmp, tmpPath path = .ok tmp := ⟨_, tmpPath_eq h.isName.1⟩
  obtain ⟨t', hreplace, hdirs, hafter⟩ := h.replace htmp hleft
  have hanswer : env.pathAnswer w.calls w.disk.tree (.replace tmp path) = (.ok (.ok ()), t') := by
    unfold NodeEnvironment.pathAnswer NodeEnvironment.answer NodeEnvironment.outcome
    simp [h.tmp_hasNul htmp, h.hasNul, hreplace, hfault]
  rw [fileSteps_replace_eq htmp]
  refine ⟨?_, ⟨?_, ask_outside env w _⟩, ?_⟩
  · rw [ask_answer, hanswer]
  · rwa [ask_tree, hanswer]
  · rwa [ask_tree, hanswer]

end Steps

theorem hasNul_parent (h : path.hasNul = false) : path.parent.hasNul = false := by
  unfold PurePath.hasNul at h ⊢
  rw [List.any_eq_false] at h ⊢
  exact fun part hpart => h part (List.mem_of_mem_dropLast hpart)

/-- A call that leaves the tree as it was in `w`. -/
theorem runs_ask_same {w₁ : Node ω} {call : PathCall} {r : Except AgentError call.Res}
    (h₁ : SameNode w w₁)
    (h : env.pathAnswer w₁.calls w.disk.tree call = (r, w.disk.tree)) :
    Runs env.handle (fun _ w' => SameNode w w') (ask call) w₁
      fun r' w' => r' = r ∧ SameNode w w' := by
  rw [← h₁.tree] at h
  have hsame : SameNode w₁ ((ask call).run env.handle w₁).2 := sameNode_path (by rw [h])
  refine (runs_ask (R := fun _ w' => SameNode w w') (h₁.trans hsame)).post fun r' w' hr => ?_
  rw [run_ask] at hr hsame
  obtain ⟨rfl, rfl⟩ := Prod.ext_iff.1 hr
  exact ⟨congrArg Prod.fst h, h₁.trans hsame⟩

/-- A directory that is there is not made. -/
theorem runs_mkdir_there (hfault : ∀ n, env.fileFault n = none)
    (hleads : env.fs.leadsTo w.disk.tree path = some d) (hdir : w.disk.tree.node? d = some .dir)
    (hnul : path.hasNul = false) (missing : NodeProgram Unit) :
    Runs env.handle (fun _ w' => SameNode w w') (FileBuffer.mkdir ask missing path) w
      (Ends (fun _ w' => SameNode w w') fun _ _ => False) := by
  have hmkdir : env.pathAnswer w.calls w.disk.tree (.mkdir path) =
      (.ok (.error (.osError ⟨env.fs.strerror w.calls⟩)), w.disk.tree) := by
    unfold NodeEnvironment.pathAnswer
    simp [hnul, hfault, FsEnvironment.mkdir_of_leadsTo hleads]
  refine (runs_ask_same ⟨rfl, rfl⟩ hmkdir).bind (fun made w₁ h₁ => ?_) fun e w₁ he => ?_
  · obtain ⟨hmade, h₁⟩ := h₁
    obtain rfl := Except.ok.inj hmade
    have hthere : env.fs.isDir w.disk.tree path = true := by
      unfold FsEnvironment.isDir FileTree.isDir
      rw [hleads, Option.any_some, hdir]
      rfl
    have hisDir : env.pathAnswer w₁.calls w.disk.tree (.isDir path) =
        (.ok (.ok true), w.disk.tree) := by
      unfold NodeEnvironment.pathAnswer NodeEnvironment.answer
      simp [hnul, hfault, hthere]
    refine (runs_ask_same h₁ hisDir).bind (fun isDir w₂ h₂ => ?_) fun e w₂ he => ?_
    · obtain ⟨hisDir, h₂⟩ := h₂
      obtain rfl := Except.ok.inj hisDir
      exact h₂
    · cases he.1
  · cases he.1

section Programs

variable (h : BufferAt env.fs path w.disk.tree d file) (hfault : ∀ n, env.fileFault n = none)
include h hfault

/-- The constructor of the buffer finds the directory and the file. -/
theorem runs_init : Runs env.handle (fun _ w' => SameNode w w') (FileBuffer.init ask path) w
    fun r w' => r = .ok () ∧ SameNode w w' := by
  obtain ⟨hleads, hdir⟩ := FsEnvironment.holder_eq_some_iff.1 h.holder
  have hmkdir : ∀ parts, Runs env.handle (fun _ w' => SameNode w w')
      (FileBuffer.mkdirParents ask parts path.parent) w
      (Ends (fun _ w' => SameNode w w') fun _ _ => False) := by
    intro parts
    cases parts <;> exact runs_mkdir_there hfault hleads hdir (hasNul_parent h.hasNul) _
  refine (hmkdir _).bind (fun _ w₁ h₁ => ?_) fun _ _ hfalse => hfalse.elim
  have hexists : env.pathAnswer w₁.calls w.disk.tree (.exists? path) =
      (.ok (.ok true), w.disk.tree) := by
    unfold NodeEnvironment.pathAnswer NodeEnvironment.answer
    simp [h.hasNul, h.exists?, hfault]
  refine (runs_ask_same h₁ hexists).bind (fun found w₂ h₂ => ?_) fun e w₂ he => ?_
  · obtain ⟨hfound, h₂⟩ := h₂
    obtain rfl := Except.ok.inj hfound
    exact ⟨rfl, h₂⟩
  · cases he.1

/-- What comes before the first reading leaves the node as it is. -/
theorem runs_setUp {settings : AgentProcessSettings} (hpath : settings.path = path) :
    Runs env.handle (fun _ w' => SameNode w w') settings.setUp w fun r w' => SameNode w w' ∧
      ∀ e, r = .error e → ∃ n step e', env.prepare n step = .error e' := by
  subst hpath
  have hprepare : ∀ step w₁, SameNode w w₁ → Runs env.handle (fun _ w' => SameNode w w')
      (NodeProgram.perform (.prepare step)) w₁ fun r w' => SameNode w w' ∧
        ∀ e, r = .error e → ∃ n step e', env.prepare n step = .error e' := by
    intro step w₁ h₁
    have hsame : SameNode w (env.handle (.prepare step) w₁).2 := h₁.trans ⟨rfl, rfl⟩
    exact runs_perform hsame ⟨hsame, fun e he => ⟨w₁.calls, step, e, he⟩⟩
  have hload : Runs env.handle (fun _ w' => SameNode w w') AgentProcessSettings.loadSettings w
      fun r w' => SameNode w w' ∧ ∀ e, r = .error e → ∃ n step e', env.prepare n step = .error e' :=
    (hprepare .settings w ⟨rfl, rfl⟩).tryCatch (fun _ _ h₁ => ⟨h₁.1, nofun⟩) fun e _ h₁ =>
      ⟨h₁.1, fun _ _ => h₁.2 e rfl⟩
  refine hload.bind (fun _ w₁ h₁ => ?_) fun e _ h₁ => ⟨h₁.1, fun _ _ => h₁.2 e rfl⟩
  refine (hprepare .client w₁ h₁.1).bind (fun _ w₂ h₂ => ?_) fun e _ h₂ =>
    ⟨h₂.1, fun _ _ => h₂.2 e rfl⟩
  have hplace : BufferAt env.fs settings.path w₂.disk.tree d file := by
    rwa [h₂.1.tree]
  refine (runs_init hplace hfault).mono (fun _ _ h₃ => h₂.1.trans h₃) fun r w₃ hr => ?_
  obtain ⟨rfl, h₃⟩ := hr
  exact ⟨h₂.1.trans h₃, nofun⟩

end Programs

end Node

end ClusterPulse
