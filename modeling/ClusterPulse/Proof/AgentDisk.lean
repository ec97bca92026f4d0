import ClusterPulse.Proof.AgentCycles
import ClusterPulse.Proof.ClearDirectory

/-!
# What an Agent may remove from its node

Over the whole life of an Agent, whatever the Collector or the network answers, whichever calls fail
and wherever the process is killed and started again: what goes from the node's filesystem lies beneath
a directory in the Agent's own allowlist, or is the entry of its buffer file or of the temporary file;
without the opt-in only the latter (`removed_beneath_allowed`).
-/

namespace ClusterPulse

open Prog FileTree FsProg

/-! ## Removals -/

/-- From `t` to `t'`, entries were removed, each of them beneath a directory that an allowed path
leads to. -/
structure RemovedBeneath (env : FsEnvironment) (allowed : Finset String) (t t' : FileTree) :
    Prop where
  le : t' ≤ t
  beneath : ∀ e ∈ t.entries, e ∉ t'.entries →
    ∃ path ∈ allowed, ∃ d, env.resolve t path.toList = some d ∧ Beneath d e.1

section Removals

variable {env : FsEnvironment} {allowed : Finset String} {t t' t'' : FileTree} {path : List Char}
  {w : FsWorld}

theorem RemovedBeneath.refl (env : FsEnvironment) (allowed : Finset String) (t : FileTree) :
    RemovedBeneath env allowed t t := ⟨le_rfl', fun _ he hgone => absurd he hgone⟩

/-- A path leads to the same directory before and after a removal, or nowhere afterwards. -/
theorem RemovedBeneath.trans (h : RemovedBeneath env allowed t t')
    (h' : RemovedBeneath env allowed t' t'') : RemovedBeneath env allowed t t'' := by
  refine ⟨le_trans' h'.le h.le, fun e he hgone => ?_⟩
  by_cases hmid : e ∈ t'.entries
  · obtain ⟨path, hpath, d, hd, hbeneath⟩ := h'.beneath e hmid hgone
    exact ⟨path, hpath, d, resolve_mono h.le hd, hbeneath⟩
  · exact h.beneath e he hmid

theorem PartlyEmptied.removedBeneath {path : String} (hpath : path ∈ allowed)
    (h : PartlyEmptied env path.toList t t') : RemovedBeneath env allowed t t' := by
  obtain rfl | ⟨d, hd, hconfined⟩ := h
  · exact .refl env allowed t'
  · refine ⟨hconfined.le, fun e he hgone => ⟨path, hpath, d, hd, ?_⟩⟩
    by_contra hbeneath
    exact hgone (hconfined.kept e he hbeneath)

/-! ## One call of the executor -/

/-- The call asks something, or it is about an entry of the directory at `path`. -/
def IsAbout (path : List Char) : FsCall → Prop
  | .listdir _ | .isdir _ | .islink _ => True
  | .rmtree p | .remove p => ∃ entry, IsName entry ∧ p = join path entry

/-- A removal removes the entry it is about, from the directory that the path leads to now. -/
theorem partlyEmptied_of_isAbout {op : FsCall} (hop : IsAbout path op) (hpath : path ≠ []) :
    PartlyEmptied env path w.tree (handler env op w).2.tree := by
  have hremoval : ∀ entry, IsName entry → op.path = join path entry →
      PartlyEmptied env path w.tree (env.answer w op).2 := by
    intro entry hentry hop
    cases hl : env.lresolve w.tree op.path with
    | none =>
      -- there is nothing at the path
      refine .inl ?_
      cases op with
      | listdir | isdir | islink => rfl
      | rmtree p =>
        obtain h | ⟨l, hsome, -⟩ := FsEnvironment.rmtree_tree env w p
        · exact h
        · change env.lresolve w.tree p = none at hl
          rw [hsome] at hl
          cases hl
      | remove p =>
        obtain h | ⟨l, hsome, -⟩ := FsEnvironment.remove_tree env w p
        · exact h
        · change env.lresolve w.tree p = none at hl
          rw [hsome] at hl
          cases hl
    | some l =>
      rw [hop] at hl
      obtain ⟨d, hd, rfl, -⟩ := lresolve_join hpath hentry hl
      refine .inr ⟨d, hd, FsEnvironment.answer_confined fun l' hl' => ?_⟩
      rw [hop] at hl'
      obtain rfl := Option.some.inj (hl.symm.trans hl')
      exact beneath_append
  cases op with
  | listdir | isdir | islink => exact .inl rfl
  | rmtree p =>
    obtain ⟨entry, hentry, rfl⟩ := hop
    exact hremoval entry hentry rfl
  | remove p =>
    obtain ⟨entry, hentry, rfl⟩ := hop
    exact hremoval entry hentry rfl

theorem only_removeEntry {entry : List Char} (hentry : IsName entry) :
    Only (IsAbout path) (removeEntry path entry) := by
  have hremove : Only (IsAbout path) (FsProg.remove (join path entry)) :=
    only_perform ⟨entry, hentry, rfl⟩
  refine (only_perform trivial).bind fun isdir => ?_
  cases isdir with
  | false => exact hremove
  | true =>
    refine (only_perform trivial).bind fun islink => ?_
    cases islink with
    | false => exact only_perform ⟨entry, hentry, rfl⟩
    | true => exact hremove

theorem only_removeEntries {entries : List (List Char)} (hentries : ∀ entry ∈ entries, IsName entry) :
    Only (IsAbout path) (removeEntries path entries) := by
  induction entries with
  | nil => exact only_pure _
  | cons entry entries ih =>
    refine (only_removeEntry (hentries entry List.mem_cons_self)).bind fun _ => ?_
    exact ih fun name hname => hentries name (List.mem_cons_of_mem _ hname)

/-- A listing has names only. -/
theorem isName_of_listdir {names : List (List Char)}
    (h : (handler env (.listdir path) w).1 = .ok names) : ∀ name ∈ names, IsName name := by
  have hlist : env.listdir w path = .ok names := by
    change (env.listdir w path).mapError ExecutorError.filesystem = .ok names at h
    cases hr : env.listdir w path with
    | error e =>
      rw [hr] at h
      cases h
    | ok names' =>
      rw [hr] at h
      exact congrArg _ (Except.ok.inj h)
  obtain ⟨_, -, -, hnames⟩ := FsEnvironment.listdir_ok hlist
  exact fun name hname => isName_of_mem_children ((hnames name).1 hname)

theorem runs_clearing (hpath : path ≠ []) : Runs (handler env)
    (fun w w' => PartlyEmptied env path w.tree w'.tree) (clearDirectoryContents path) w
    fun _ _ => True := by
  refine ⟨.inl rfl, ?_⟩
  cases hr : (handler env (.listdir path) w).1 with
  | error e => trivial
  | ok names =>
    have honly : Only (IsAbout path) (removeEntries path names) :=
      only_removeEntries (isName_of_listdir hr)
    refine (honly.runs_step (fun _ => True) (fun op w' hop _ =>
      ⟨partlyEmptied_of_isAbout hop hpath, trivial⟩) trivial).bind ?_ fun _ _ _ => trivial
    exact fun _ _ _ => trivial

/-- Whatever the action, at every moment of its execution. -/
theorem safe_execute (env : FsEnvironment) (repr : TextRepr) (executor : PlaybookExecutor)
    (action : PendingAction) : Safe (handler env) (fun _ => True)
    (fun w w' => RemovedBeneath env executor.allowedDirectories w.tree w'.tree) (fun _ => True)
    (executor.execute repr action) := by
  have hdispatch : Safe (handler env) (fun _ => True)
      (fun w w' => RemovedBeneath env executor.allowedDirectories w.tree w'.tree) (fun _ => True)
      (executor.dispatch repr action) := by
    unfold PlaybookExecutor.dispatch
    split
    · exact safe_pure _
    · unfold executeClearDirectory
      dsimp only
      split_ifs with hrefused
      · exact safe_throw trivial
      · obtain ⟨hne, hmem⟩ := not_or.1 hrefused
        refine Safe.bind (fun w _ => ?_) fun removed => safe_pure _
        have hpath := fun hnil => hne (String.toList_eq_nil_iff.1 hnil)
        refine (runs_clearing hpath).mono (fun w w' h => ?_) fun r w' _ => ?_
        · exact ⟨h.removedBeneath (not_not.1 hmem), trivial⟩
        · cases r with
          | ok removed => trivial
          | error e => exact ⟨trivial, trivial⟩
    · exact safe_throw trivial
  refine hdispatch.tryCatch fun e _ => ?_
  split_ifs
  · exact safe_pure _
  · exact safe_throw trivial

end Removals

/-! ## One call of the buffer -/

section Buffer

variable {env : FsEnvironment} {t t' : FileTree} {path : PurePath} {e : Location × FileNode}

/-- The buffer makes its calls at `path`, and at the path of the temporary file. -/
def PathCall.IsOwn (path : PurePath) : PathCall → Prop
  | .writeText tmp _ => FileBuffer.tmpPath path = .ok tmp
  | .replace tmp target => FileBuffer.tmpPath path = .ok tmp ∧ target = path
  | _ => True

/-- The entry of the buffer file or of the temporary file, or what the latter leads to. -/
def OwnEntry (env : FsEnvironment) (path : PurePath) (t : FileTree) (l : Location) : Prop :=
  env.placeOf t path = some l ∨ ∃ tmp, FileBuffer.tmpPath path = .ok tmp ∧
    (env.placeOf t tmp = some l ∨ env.landing t tmp = some l)

theorem mem_put_of_none {l : Location} {node : FileNode} {htakes : t.Takes l}
    (h : t.node? l = none) (he : e ∈ t.entries) : e ∈ (t.put l node htakes).entries := by
  refine mem_put.2 (.inr ⟨he, ?_⟩)
  rintro rfl
  rw [(node?_eq_some_iff htakes.ne_nil).2 he] at h
  cases h

theorem mem_of_mkdir (h : env.mkdir t path = .ok t') (he : e ∈ t.entries) : e ∈ t'.entries := by
  obtain ⟨l, hnode, htakes, rfl⟩ := FsEnvironment.mkdir_ok h
  exact mem_put_of_none hnode he

theorem mem_of_touch (h : env.touch t path = some t') (he : e ∈ t.entries) : e ∈ t'.entries := by
  obtain rfl | ⟨l, -, hnode, htakes, rfl⟩ := FsEnvironment.touch_some h
  · exact he
  · exact mem_put_of_none hnode he

theorem landing_of_write {content : List UInt8} (h : env.write t path content = some t')
    (he : e ∈ t.entries) (hgone : e ∉ t'.entries) : env.landing t path = some e.1 := by
  obtain ⟨l, hl, htakes, rfl⟩ := FsEnvironment.write_eq_some_iff.1 h
  have heq : e.1 = l := by
    by_contra hne
    exact hgone (mem_put.2 (.inr ⟨he, hne⟩))
  rw [heq]
  exact hl

theorem placeOf_of_replace {source target : PurePath} (h : env.replace t source target = some t')
    (he : e ∈ t.entries) (hgone : e ∉ t'.entries) :
    env.placeOf t source = some e.1 ∨ env.placeOf t target = some e.1 := by
  obtain ⟨l, node, hl, hnode, hdir, rfl | ⟨l', hl', htakes, rfl⟩⟩ := FsEnvironment.replace_some h
  · exact absurd he hgone
  · by_cases htarget : e.1 = l'
    · rw [htarget]
      exact .inr hl'
    · left
      have hlead : l <+: e.1 := by
        by_contra hnot
        exact hgone (mem_put.2 (.inr ⟨mem_removeAt.2 ⟨he, hnot⟩, htarget⟩))
      have heq : e.1 = l := by
        by_contra hne
        have hsome := (node?_eq_some_iff (t.names e he).1).2 he
        rw [isDir_of_beneath hsome ⟨hlead, hne⟩] at hnode
        exact hdir (Option.some.inj hnode).symm
      rw [heq]
      exact hl

end Buffer

/-! ## The process -/

namespace AgentProcessSettings

/-- The directories that the process may clear. -/
def clearable (settings : AgentProcessSettings) : Finset String :=
  if settings.remediationEnabled then settings.remediationAllowedDirectorySet else ∅

/-- What may go from the tree `t`. -/
def MayRemove (settings : AgentProcessSettings) (env : FsEnvironment) (t : FileTree)
    (l : Location) : Prop :=
  (∃ path ∈ settings.clearable, ∃ d, env.resolve t path.toList = some d ∧ Beneath d l) ∨
    OwnEntry env settings.path t l

end AgentProcessSettings

section Process

variable {ω : Type} {env : NodeEnvironment ω} {settings : AgentProcessSettings} {j : PydanticJson}
  {repr : TextRepr}

/-- Around a call of the process. -/
def DiskStep (env : NodeEnvironment ω) (settings : AgentProcessSettings) (w w' : Node ω) : Prop :=
  ∀ e ∈ w.disk.tree.entries, e ∉ w'.disk.tree.entries →
    settings.MayRemove env.fs w.disk.tree e.1

/-- Around a call of the executor. -/
structure ExecutorStep (env : NodeEnvironment ω) (settings : AgentProcessSettings)
    (w w' : Node ω) : Prop where
  removed : RemovedBeneath env.fs settings.clearable w.disk.tree w'.disk.tree
  outside : w'.outside = w.outside

theorem ExecutorStep.diskStep {w w' : Node ω} (h : ExecutorStep env settings w w') :
    DiskStep env settings w w' := fun e he hgone => .inl (h.removed.beneath e he hgone)

/-- The calls that leave the filesystem alone. -/
def NodeCall.IsApart : NodeCall → Prop
  | .fs _ | .path _ => False
  | _ => True

/-- The program removes what it may remove. -/
abbrev Careful {α : Type} (env : NodeEnvironment ω) (settings : AgentProcessSettings)
    (p : NodeProgram α) : Prop :=
  Safe env.handle (fun _ => True) (DiskStep env settings) (fun _ => True) p

theorem careful_apart {c : NodeCall} (hc : c.IsApart) :
    Careful env settings (NodeProgram.perform c) := by
  refine safe_perform (fun w _ => ⟨fun e he hgone => ?_, trivial⟩) fun _ _ _ _ => trivial
  have hdisk : (env.handle c w).2.disk = w.disk := by
    cases c with
    | fs | path => exact hc.elim
    | _ => rfl
  rw [hdisk] at hgone
  exact absurd he hgone

section Path

variable {n : ℕ} {t t' : FileTree} {e : Location × FileNode}

/-- What a call of the buffer can make of a tree. -/
inductive PathStep (env : FsEnvironment) (t : FileTree) : PathCall → FileTree → Prop
  | same (call : PathCall) : PathStep env t call t
  | mkdir {path : PurePath} {t' : FileTree} (h : env.mkdir t path = .ok t') :
      PathStep env t (.mkdir path) t'
  | touch {path : PurePath} {t' : FileTree} (h : env.touch t path = some t') :
      PathStep env t (.touch path) t'
  /-- With other content where the write failed. -/
  | write {path : PurePath} {content left : List UInt8} {t' : FileTree}
      (h : env.write t path left = some t') : PathStep env t (.writeText path content) t'
  | replace {source target : PurePath} {t' : FileTree} (h : env.replace t source target = some t') :
      PathStep env t (.replace source target) t'

/-- A change may fail and leave another tree. -/
theorem outcome_eq (env : NodeEnvironment ω) (n : ℕ) (changed : Option FileTree)
    (failed t : FileTree) : env.outcome n changed failed t = t ∨
      env.outcome n changed failed t = failed ∨
      changed = some (env.outcome n changed failed t) := by
  unfold NodeEnvironment.outcome
  split
  · exact .inr (.inl rfl)
  · cases changed with
    | none => exact .inl rfl
    | some t' => exact .inr (.inr rfl)

theorem tornTree_eq (env : NodeEnvironment ω) (n : ℕ) (t : FileTree) (path : PurePath) :
    env.tornTree n t path = t ∨ ∃ left, env.fs.write t path left = some (env.tornTree n t path) := by
  unfold NodeEnvironment.tornTree
  cases hwrite : (env.torn n).bind fun content => env.fs.write t path content with
  | none => exact .inl rfl
  | some t' =>
    obtain ⟨left, -, hwrite⟩ := Option.bind_eq_some_iff.1 hwrite
    exact .inr ⟨left, hwrite⟩

theorem pathStep (env : NodeEnvironment ω) (n : ℕ) (t : FileTree) (call : PathCall) :
    PathStep env.fs t call (env.pathAnswer n t call).2 := by
  cases call with
  | isDir | exists? => exact .same _
  | mkdir path =>
    simp only [NodeEnvironment.pathAnswer]
    split_ifs
    · exact .same _
    · split
      · exact .same _
      · rename_i hmkdir
        exact .mkdir hmkdir
      · exact .same _
      · exact .same _
  | touch path =>
    simp only [NodeEnvironment.pathAnswer]
    split_ifs
    · exact .same _
    · obtain h | h | h := outcome_eq env n (env.fs.touch t path) t t
      · rw [h]
        exact .same _
      · rw [h]
        exact .same _
      · exact .touch h
  | readText path =>
    simp only [NodeEnvironment.pathAnswer]
    split_ifs <;> exact .same _
  | writeText path content =>
    simp only [NodeEnvironment.pathAnswer]
    split_ifs
    · exact .same _
    · obtain h | h | h := outcome_eq env n (env.fs.write t path content) (env.tornTree n t path) t
      · rw [h]
        exact .same _
      · rw [h]
        obtain h | ⟨left, h⟩ := tornTree_eq env n t path
        · rw [h]
          exact .same _
        · exact .write h
      · exact .write h
  | replace source target =>
    simp only [NodeEnvironment.pathAnswer]
    split_ifs
    · exact .same _
    · obtain h | h | h := outcome_eq env n (env.fs.replace t source target) t t
      · rw [h]
        exact .same _
      · rw [h]
        exact .same _
      · exact .replace h

theorem ownEntry_of_gone {env : FsEnvironment} {call : PathCall} (h : PathStep env t call t')
    (hcall : call.IsOwn settings.path) (he : e ∈ t.entries) (hgone : e ∉ t'.entries) :
    OwnEntry env settings.path t e.1 := by
  cases h with
  | same => exact absurd he hgone
  | mkdir h => exact absurd (mem_of_mkdir h he) hgone
  | touch h => exact absurd (mem_of_touch h he) hgone
  | write h => exact .inr ⟨_, hcall, .inr (landing_of_write h he hgone)⟩
  | replace h =>
    obtain ⟨htmp, rfl⟩ := hcall
    obtain hplace | hplace := placeOf_of_replace h he hgone
    · exact .inr ⟨_, htmp, .inl hplace⟩
    · exact .inl hplace

theorem PathCall.IsSetUp.isOwn {path : PurePath} {call : PathCall} (h : call.IsSetUp) :
    call.IsOwn path := by
  cases call <;> trivial

theorem careful_ask (call : PathCall) (hcall : call.IsOwn settings.path) :
    Careful env settings (NodeProgram.ask call) := by
  refine safe_perform (fun w _ => ⟨fun e he hgone => ?_, trivial⟩) fun _ _ _ _ => trivial
  exact .inr (ownEntry_of_gone (pathStep env w.calls w.disk.tree call) hcall he hgone)

theorem careful_stepAt (step : FileStep) :
    Careful env settings (FileBuffer.stepAt NodeProgram.ask settings.path step) := by
  unfold FileBuffer.stepAt
  cases step with
  | readText => exact careful_ask (.readText settings.path) trivial
  | writeText content =>
    cases htmp : FileBuffer.tmpPath settings.path with
    | error e => exact safe_throw trivial
    | ok tmp => exact careful_ask (.writeText tmp content) htmp
  | replace =>
    cases htmp : FileBuffer.tmpPath settings.path with
    | error e => exact safe_throw trivial
    | ok tmp => exact careful_ask (.replace tmp settings.path) ⟨htmp, rfl⟩

theorem careful_onFile {α : Type} (p : Prog FileStep FileStep.Res AgentError α) :
    Careful env settings (NodeProgram.onFile settings.path p) :=
  (Safe.interpret (fun step => (careful_stepAt step).result) p).bind fun _ =>
    safe_lift fun _ _ => trivial

end Path

/-- The executor works on the filesystem of the node. -/
theorem executes_onFilesystem (hopt : settings.remediationEnabled = true) (action : PendingAction) :
    Safe env.handle (fun _ => True) (ExecutorStep env settings) (fun _ => True)
      (NodeProgram.onFilesystem
        (PlaybookExecutor.execute repr ⟨settings.remediationAllowedDirectorySet⟩ action)) := by
  refine Safe.bind (fun w _ => ?_) fun _ => safe_lift fun _ _ => trivial
  have hclearable : settings.clearable = settings.remediationAllowedDirectorySet := if_pos hopt
  have hexecute := (projects_fsCalls env).runs (safe_execute env.fs repr
    ⟨settings.remediationAllowedDirectorySet⟩ action w.disk trivial)
  refine (Runs.interpret (fun op w' hstep => ?_) hexecute).post fun r _ h => ?_
  · refine runs_perform ⟨⟨?_, rfl⟩, trivial⟩ ⟨rfl, rfl⟩
    rw [hclearable]
    exact hstep.1
  · obtain ⟨r₀, rfl, -⟩ := h
    trivial

theorem careful_post (request : HttpRequest) : Careful env settings (settings.http.post request) := by
  have hclient : Careful env settings (settings.http.clientPost request) :=
    (safe_lift fun _ _ => trivial).bind fun _ => careful_apart (c := .post request) trivial
  exact (hclient.tryCatch fun _ _ => safe_throw trivial).bind fun _ => safe_lift fun _ _ => trivial

theorem careful_calls : CallsSafe env.handle (fun _ => True) (DiskStep env settings) (fun _ => True)
    (fun _ => True) settings j repr where
  prepare step := careful_apart (c := .prepare step) trivial
  init := safe_init (fun call hcall => careful_ask call hcall.isOwn) _
  psutil reading := careful_apart (c := .psutil reading) trivial
  startup := careful_apart (c := .psutil .cpuPercent) trivial
  now := careful_apart (c := .now) trivial
  collected := yields_trivial _
  read := careful_onFile _
  readable := fun _ _ _ _ _ _ => trivial
  write _ := careful_onFile _
  send payload _ := ((careful_post (.metrics payload)).bind fun _ =>
    safe_lift fun _ _ => trivial).mono fun _ _ => .inr trivial
  report actionId result := ((careful_post (.actionResult actionId result)).map _).mono
    fun _ _ => .inr trivial
  execute hopt action := (executes_onFilesystem hopt action).relax fun _ _ h => h.diskStep
  shouldStop := careful_apart (c := .shouldStop) trivial
  sleep := careful_apart (c := .sleep _) trivial

end Process

/-! ## Lives -/

section Lives

variable {ω : Type} {settings : AgentProcessSettings} {j : PydanticJson} {repr : TextRepr}
  {env : NodeEnvironment ω}

/-- The life, stopped after so many calls. -/
def Life.stoppedAt (life : Life) (calls : ℕ) : Life := { life with calls }

/-- What goes in one life goes in one of its calls. -/
theorem gone_in_life {life : Life} {w : Node ω} {e : Location × FileNode}
    (he : e ∈ w.disk.tree.entries)
    (hgone : e ∉ (settings.lives j repr env [life] w).disk.tree.entries) :
    ∃ n < life.calls,
      e ∈ (settings.lives j repr env [life.stoppedAt n] w).disk.tree.entries ∧
      e ∉ (settings.lives j repr env [life.stoppedAt (n + 1)] w).disk.tree.entries ∧
      settings.MayRemove env.fs (settings.lives j repr env [life.stoppedAt n] w).disk.tree e.1 := by
  have hmain : Careful env settings (settings.main j repr life.cycles) := careful_calls.main _
  suffices hmoment : ∀ calls, e ∉ (settings.lives j repr env [life.stoppedAt calls] w).disk.tree.entries →
      ∃ n < calls,
        e ∈ (settings.lives j repr env [life.stoppedAt n] w).disk.tree.entries ∧
        e ∉ (settings.lives j repr env [life.stoppedAt (n + 1)] w).disk.tree.entries ∧
        settings.MayRemove env.fs (settings.lives j repr env [life.stoppedAt n] w).disk.tree e.1 from
    hmoment life.calls hgone
  intro calls
  induction calls with
  | zero => exact fun hgone => absurd he hgone
  | succ calls ih =>
    intro hgone
    by_cases hbefore : e ∈ (settings.lives j repr env [life.stoppedAt calls] w).disk.tree.entries
    · refine ⟨calls, Nat.lt_succ_self _, hbefore, hgone, ?_⟩
      obtain hsame | hstep := hmain.step (s := w.started) trivial calls
      · have heq : settings.lives j repr env [life.stoppedAt (calls + 1)] w =
            settings.lives j repr env [life.stoppedAt calls] w := hsame
        rw [heq] at hgone
        exact absurd hbefore hgone
      · exact hstep e hbefore hgone
    · obtain ⟨n, hn, hmoment⟩ := ih hbefore
      exact ⟨n, Nat.lt_succ_of_lt hn, hmoment⟩

/-- An entry that has gone after some lives of an Agent went in a call of one of them, and at that
moment it lay beneath a directory that an allowed path led to, or was the Agent's own. -/
theorem removed_beneath_allowed (settings : AgentProcessSettings) (j : PydanticJson)
    (repr : TextRepr) (env : NodeEnvironment ω) (lives : List Life) (w : Node ω)
    {e : Location × FileNode} (he : e ∈ w.disk.tree.entries)
    (hgone : e ∉ (settings.lives j repr env lives w).disk.tree.entries) :
    ∃ prior life rest n, lives = prior ++ life :: rest ∧ n < life.calls ∧
      let before := settings.lives j repr env (prior ++ [life.stoppedAt n]) w
      let after := settings.lives j repr env (prior ++ [life.stoppedAt (n + 1)]) w
      e ∈ before.disk.tree.entries ∧ e ∉ after.disk.tree.entries ∧
        settings.MayRemove env.fs before.disk.tree e.1 := by
  induction lives generalizing w with
  | nil => exact absurd he hgone
  | cons life rest ih =>
    by_cases hlife : e ∈ (settings.lives j repr env [life] w).disk.tree.entries
    · obtain ⟨prior, life', rest', n, rfl, hn, hmoment⟩ := ih _ hlife hgone
      exact ⟨life :: prior, life', rest', n, rfl, hn, hmoment⟩
    · obtain ⟨n, hn, hmoment⟩ := gone_in_life he hlife
      exact ⟨[], life, rest, n, rfl, hn, hmoment⟩

end Lives

namespace Scenario

/-- The Collector asks for `/d` to be cleared. -/
def clearing : Ack where
  accepted := true
  receivedAt := (clock 0).instant
  pendingActions := [⟨1, .clearDirectory, [("path", "/d")]⟩]

/-- Nothing fails on this node, and nothing is buffered there. -/
def clearingEnvironment : NodeEnvironment Unit where
  prepare _ _ := .ok ()
  psutil _ reading := match reading with
    | .cpuPercent => .ok 95
    | _ => .error (.exception "not mounted")
  now _ := clock 0
  fileFault _ := none
  torn _ := none
  fs := faultless
  post _ _ outside := (.ok ⟨200, some clearing⟩, outside)
  signal _ := false

def clearingAgent : AgentProcessSettings :=
  { nodeId := "node-1", remediationEnabled := true, remediationAllowedDirectories := "/d" }

def clearedNode (lives : List Life) : Node Unit :=
  clearingAgent.lives ⟨fun _ => [], fun _ => [], fun _ => none⟩ id clearingEnvironment lives
    ⟨⟨linkedTree, 0⟩, (), false, 0⟩

/-- The file in `/d` goes in the first cycle. -/
theorem removed_beneath_allowed_clearing :
    ∃ prior life rest n, [⟨1, 30⟩] = prior ++ life :: rest ∧ n < life.calls ∧
      let before := clearedNode (prior ++ [life.stoppedAt n])
      let after := clearedNode (prior ++ [life.stoppedAt (n + 1)])
      ([['d'], ['a']], .file [1]) ∈ before.disk.tree.entries ∧
        ([['d'], ['a']], .file [1]) ∉ after.disk.tree.entries ∧
        clearingAgent.MayRemove faultless before.disk.tree [['d'], ['a']] :=
  removed_beneath_allowed clearingAgent _ id clearingEnvironment [⟨1, 30⟩] _ (by decide)
    (by decide +kernel)

end Scenario

end ClusterPulse
