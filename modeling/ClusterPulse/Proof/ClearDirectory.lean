import ClusterPulse.Agent.Remediation

/-!
# Clearing a directory

`CLEAR_DIRECTORY` is the one action that destroys something.  On a filesystem that nothing else
changes, whatever its links and whichever calls fail, it removes entries beneath the directory its
path leads to and nothing else, and only if the allowlist has the path.

The loop asks for one entry path after another, and the path may itself lead through the directory
that is being cleared.  Removing entries never makes a path lead elsewhere, so each entry path names
the entry of that name in the directory, or nothing.
-/

namespace ClusterPulse

open Prog FileTree FsProg

/-! ## The property -/

/-- The action asks to clear a directory that is in the allowlist. -/
def PlaybookExecutor.Permits (executor : PlaybookExecutor) (action : PendingAction)
    (path : String) : Prop :=
  action.actionType = .clearDirectory ∧ action.parameters.lookup "path" = some path ∧
    path ∈ executor.allowedDirectories

/-- What clearing `path` may do to a tree. -/
structure ClearedWithin (env : FsEnvironment) (path : List Char) (t t' : FileTree) : Prop where
  /-- Nothing is created, moved or overwritten. -/
  removed : t' ≤ t
  beneath : ∀ e ∈ t.entries, e ∉ t'.entries → ∃ d, env.resolve t path = some d ∧ Beneath d e.1
  /-- What a link in the directory leads to is as it was, unless it is in the directory too. -/
  targets : ∀ d, env.resolve t path = some d → ∀ l target, Beneath d l →
    t.node? l = some (.link target) → ∀ m, t.resolve env.maxLinks l.dropLast target = some m →
      ∀ l', m <+: l' → ¬ Beneath d l' → t'.node? l' = t.node? l'
  remains : ∀ d, env.resolve t path = some d → t'.node? d = t.node? d

/-- How an execution has to end. -/
structure ExecutesWithin (env : FsEnvironment) (executor : PlaybookExecutor)
    (action : PendingAction) (w : FsWorld)
    (outcome : Except ExecutorError ActionResult × FsWorld) : Prop where
  returns : ∃ result, outcome.1 = .ok result
  refuses : (∀ path, ¬ executor.Permits action path) → outcome.2.tree = w.tree ∧
    ∀ result, outcome.1 = .ok result →
      action.actionType = .clearDirectory ∨ action.actionType = .restartService →
        result.status ≠ .executed
  clears : ∀ path, executor.Permits action path →
    ClearedWithin env path.toList w.tree outcome.2.tree
  empties : ∀ path, executor.Permits action path → ∀ result, outcome.1 = .ok result →
    result.status = .executed → ∃ d, env.resolve w.tree path.toList = some d ∧
      outcome.2.tree.node? d = some .dir ∧ outcome.2.tree.children d = []

/-! ## The loop -/

/-- Within the loop: of `t`, only entries beneath `d` are gone, and those in `done` are. -/
structure Clearing (d : Location) (t : FileTree) (done : List (List Char)) (t' : FileTree) :
    Prop where
  confined : Confined d t t'
  gone : ∀ name ∈ done, ∀ e ∈ t'.entries, ¬ d ++ [name] <+: e.1

section Loop

variable {env : FsEnvironment} {path entry : List Char} {d : Location} {t : FileTree}
  {done : List (List Char)} {w : FsWorld}

/-- A failed pass: the exception is one that `execute` catches. -/
def Stopped (d : Location) (t : FileTree) (e : ExecutorError) (w : FsWorld) : Prop :=
  e.isCaught = true ∧ Confined d t w.tree

theorem ne_nil_of_resolve (hd : env.resolve t path = some d) : path ≠ [] := by
  intro hpath
  subst hpath
  cases hd

/-- In the middle of the loop too, an entry path names the entry in the directory. -/
theorem Clearing.lresolve_join (h : Clearing d t done w.tree) (hd : env.resolve t path = some d)
    (hentry : IsName entry) {l : Location}
    (hl : env.lresolve w.tree (join path entry) = some l) : l = d ++ [entry] := by
  obtain ⟨d', hd', rfl, -⟩ := FileTree.lresolve_join (ne_nil_of_resolve hd) hentry hl
  have heq : some d' = some d := (resolve_mono h.confined.le hd').symm.trans hd
  rw [Option.some.inj heq]

/-- A call that removes an entry when it succeeds. -/
theorem runs_removal (op : FsCall) (hop : op.path = join path entry)
    (hok : ∀ r, (env.answer w op).1 = .ok r →
      ∃ l, env.lresolve w.tree op.path = some l ∧ (env.answer w op).2 = w.tree.removeAt l)
    (hd : env.resolve t path = some d) (hnul : '\x00' ∉ path) (hentry : IsName entry)
    (h : Clearing d t done w.tree) :
    Runs (handler env) (fun _ _ => True) (perform op) w
      (Ends (fun _ w' => Clearing d t (done ++ [entry]) w'.tree) (Stopped d t)) := by
  have hlocation : ∀ l, env.lresolve w.tree op.path = some l → l = d ++ [entry] := fun l hl =>
    h.lresolve_join hd hentry (hop ▸ hl)
  have hconfined : Confined d w.tree (env.answer w op).2 :=
    FsEnvironment.answer_confined fun l hl => hlocation l hl ▸ beneath_append
  refine runs_perform trivial ?_
  unfold handler FsEnvironment.handle
  cases hr : (env.answer w op).1 with
  | error e =>
    have he : e = env.osError w :=
      FsEnvironment.answer_error (hop ▸ nul_not_mem_join hnul hentry) hr
    subst he
    exact ⟨rfl, h.confined.trans hconfined⟩
  | ok r =>
    refine ⟨h.confined.trans hconfined, fun name hname e he => ?_⟩
    rcases List.mem_append.1 hname with hname | hname
    · exact h.gone name hname e (hconfined.le he)
    · obtain ⟨l, hl, htree⟩ := hok r hr
      change e ∈ (env.answer w op).2.entries at he
      rw [htree, hlocation l hl] at he
      rw [List.mem_singleton.1 hname]
      exact (mem_removeAt.1 he).2

/-- The questions about an entry change nothing and are always answered. -/
theorem runs_isdir (p : List Char) (h : Clearing d t done w.tree) :
    Runs (handler env) (fun _ _ => True) (FsProg.isdir p) w
      (Ends (fun _ w' => Clearing d t done w'.tree) (Stopped d t)) :=
  runs_perform trivial h

theorem runs_islink (p : List Char) (h : Clearing d t done w.tree) :
    Runs (handler env) (fun _ _ => True) (FsProg.islink p) w
      (Ends (fun _ w' => Clearing d t done w'.tree) (Stopped d t)) :=
  runs_perform trivial h

theorem runs_removeEntry (hd : env.resolve t path = some d) (hnul : '\x00' ∉ path)
    (hentry : IsName entry) (h : Clearing d t done w.tree) :
    Runs (handler env) (fun _ _ => True) (removeEntry path entry) w
      (Ends (fun _ w' => Clearing d t (done ++ [entry]) w'.tree) (Stopped d t)) := by
  refine (runs_isdir _ h).andThen fun isdir w₁ h₁ => ?_
  cases isdir with
  | false => exact runs_removal (.remove _) rfl (fun _ => FsEnvironment.remove_ok) hd hnul hentry h₁
  | true =>
    refine (runs_islink _ h₁).andThen fun islink w₂ h₂ => ?_
    cases islink with
    | false => exact runs_removal (.rmtree _) rfl (fun _ => FsEnvironment.rmtree_ok) hd hnul hentry h₂
    | true => exact runs_removal (.remove _) rfl (fun _ => FsEnvironment.remove_ok) hd hnul hentry h₂

theorem runs_removeEntries (hd : env.resolve t path = some d) (hnul : '\x00' ∉ path) :
    ∀ (entries done : List (List Char)) (w : FsWorld), (∀ entry ∈ entries, IsName entry) →
      Clearing d t done w.tree → Runs (handler env) (fun _ _ => True) (removeEntries path entries) w
        (Ends (fun _ w' => Clearing d t (done ++ entries) w'.tree) (Stopped d t))
  | [], done, w, _, h => by
    rw [List.append_nil]
    exact h
  | entry :: entries, done, w, hnames, h => by
    have hentry : IsName entry := hnames entry (List.mem_cons_self ..)
    refine (runs_removeEntry hd hnul hentry h).andThen fun _ w' h' => ?_
    have hrest := runs_removeEntries hd hnul entries (done ++ [entry]) w'
      (fun name hname => hnames name (List.mem_cons_of_mem _ hname)) h'
    rw [List.append_assoc] at hrest
    exact hrest

/-- The loop came to its end. -/
def Emptied (env : FsEnvironment) (path : List Char) (t t' : FileTree) : Prop :=
  ∃ d, env.resolve t path = some d ∧ t.node? d = some .dir ∧ Confined d t t' ∧ t'.children d = []

/-- The listing failed, or the loop stopped somewhere. -/
def PartlyEmptied (env : FsEnvironment) (path : List Char) (t t' : FileTree) : Prop :=
  t' = t ∨ ∃ d, env.resolve t path = some d ∧ Confined d t t'

theorem runs_clearDirectoryContents (hnul : '\x00' ∉ path) :
    Runs (handler env) (fun _ _ => True) (clearDirectoryContents path) w
      (Ends (fun _ w' => Emptied env path w.tree w'.tree)
        (fun e w' => e.isCaught = true ∧ PartlyEmptied env path w.tree w'.tree)) := by
  refine Runs.andThen (P := fun entries w' => w'.tree = w.tree ∧ ∃ d,
    env.resolve w.tree path = some d ∧ w.tree.node? d = some .dir ∧
      ∀ name, name ∈ entries ↔ name ∈ w.tree.children d) (runs_perform trivial ?_)
    fun entries w₁ h₁ => ?_
  · unfold handler FsEnvironment.handle
    cases hr : (env.answer w (.listdir path)).1 with
    | error e =>
      have hpath : '\x00' ∉ (FsCall.listdir path).path := hnul
      have he : e = env.osError w := FsEnvironment.answer_error hpath hr
      subst he
      exact ⟨rfl, .inl rfl⟩
    | ok entries => exact ⟨rfl, FsEnvironment.listdir_ok hr⟩
  · obtain ⟨htree, d, hd, hdir, hentries⟩ := h₁
    have hstart : Clearing d w.tree [] w₁.tree :=
      ⟨htree ▸ Confined.refl d _, fun _ hname => absurd hname List.not_mem_nil⟩
    have hnames : ∀ entry ∈ entries, IsName entry := fun entry hentry =>
      isName_of_mem_children ((hentries entry).1 hentry)
    refine (runs_removeEntries hd hnul entries [] w₁ hnames hstart).bind (fun _ w₂ h₂ => ?_)
      fun e w₂ h₂ => ⟨h₂.1, .inr ⟨d, hd, h₂.2⟩⟩
    refine ⟨d, hd, hdir, h₂.confined, children_eq_nil h₂.confined fun name hname => ?_⟩
    exact h₂.gone name ((hentries name).2 hname)

end Loop

/-! ## Executions -/

variable {env : FsEnvironment} {path : List Char} {t t' : FileTree}

theorem ClearedWithin.refl (env : FsEnvironment) (path : List Char) (t : FileTree) :
    ClearedWithin env path t t where
  removed := le_rfl'
  beneath _ he hgone := absurd he hgone
  targets _ _ _ _ _ _ _ _ _ _ _ := rfl
  remains _ _ := rfl

theorem clearedWithin_of_confined {d : Location} (hd : env.resolve t path = some d)
    (h : Confined d t t') : ClearedWithin env path t t' where
  removed := h.le
  beneath e he hgone := by
    refine ⟨d, hd, ?_⟩
    by_cases hbeneath : Beneath d e.1
    · exact hbeneath
    · exact absurd (h.kept e he hbeneath) hgone
  targets d' hd' _ _ _ _ _ _ l' _ hl' := by
    obtain rfl : d = d' := Option.some.inj (hd.symm.trans hd')
    exact h.node?_eq hl'
  remains d' hd' := by
    obtain rfl : d = d' := Option.some.inj (hd.symm.trans hd')
    exact h.node?_eq (not_beneath_self d)

variable {repr : TextRepr} {executor : PlaybookExecutor} {action : PendingAction} {w : FsWorld}

/-- What is not permitted is refused, or does nothing. -/
theorem run_execute_of_not_permits (env : FsEnvironment) (repr : TextRepr) (w : FsWorld)
    (h : ∀ path, ¬ executor.Permits action path) :
    ∃ result, (executor.execute repr action).run (handler env) w = (.ok result, w) ∧
      (action.actionType ≠ .noop → result.status = .failed) := by
  unfold PlaybookExecutor.execute PlaybookExecutor.dispatch
  rw [run_tryCatch]
  cases htype : action.actionType with
  | noop => exact ⟨_, rfl, fun hne => absurd rfl hne⟩
  | restartService => exact ⟨_, rfl, fun _ => rfl⟩
  | clearDirectory =>
    have hrefused : (action.parameters.lookup "path").getD "" = "" ∨
        (action.parameters.lookup "path").getD "" ∉ executor.allowedDirectories := by
      cases hpath : action.parameters.lookup "path" with
      | none => exact .inl rfl
      | some path => exact .inr fun hmem => h path ⟨htype, hpath, hmem⟩
    simp only [executeClearDirectory, if_pos hrefused]
    exact ⟨_, rfl, fun _ => rfl⟩

/-- What is permitted is the loop, under the two handlers of `execute`. -/
theorem execute_of_permits {path : String} (h : executor.Permits action path) (hne : path ≠ "") :
    executor.execute repr action = Prog.tryCatch
      ((fun removed : ℕ => ⟨.executed,
        some ("removed " ++ toString removed ++ " entries from " ++ path)⟩) <$>
          clearDirectoryContents path.toList)
      fun e => if e.isCaught then .pure ⟨.failed, some e.message⟩ else .throw e := by
  obtain ⟨htype, hpath, hmem⟩ := h
  unfold PlaybookExecutor.execute PlaybookExecutor.dispatch executeClearDirectory
  rw [htype, hpath]
  simp only [Option.getD_some]
  rw [if_neg (by simp [hne, hmem])]
  rfl

/-- A permitted action is executed to its end or fails on the way; without a NUL in its path it does
not raise. -/
theorem runs_execute (env : FsEnvironment) (repr : TextRepr) (w : FsWorld) {path : String}
    (h : executor.Permits action path) (hnul : '\x00' ∉ path.toList) :
    Runs (handler env) (fun _ _ => True) (executor.execute repr action) w
      (Ends
        (fun result w' =>
          result.status = .executed ∧ Emptied env path.toList w.tree w'.tree ∨
          result.status = .failed ∧ PartlyEmptied env path.toList w.tree w'.tree)
        (fun _ _ => False)) := by
  by_cases hempty : path = ""
  · obtain ⟨htype, hpath, -⟩ := h
    unfold PlaybookExecutor.execute PlaybookExecutor.dispatch executeClearDirectory
    rw [htype, hpath, hempty]
    exact .inr ⟨rfl, .inl rfl⟩
  · rw [execute_of_permits h hempty]
    have hresult : Runs (handler env) (fun _ _ => True)
        ((fun removed : ℕ => (⟨.executed, some ("removed " ++ toString removed ++
          " entries from " ++ path)⟩ : ActionResult)) <$> clearDirectoryContents path.toList) w
        (Ends
          (fun result w' => result.status = .executed ∧ Emptied env path.toList w.tree w'.tree)
          (fun e w' => e.isCaught = true ∧ PartlyEmptied env path.toList w.tree w'.tree)) := by
      refine (runs_clearDirectoryContents hnul).map fun r w' hr => ?_
      cases r with
      | ok removed => exact ⟨rfl, hr⟩
      | error e => exact hr
    refine hresult.tryCatch (fun result w' hend => .inl hend) fun e w' hstop => ?_
    rw [if_pos hstop.1]
    exact .inr ⟨rfl, hstop.2⟩

theorem PartlyEmptied.clearedWithin (h : PartlyEmptied env path t t') :
    ClearedWithin env path t t' := by
  rcases h with rfl | ⟨d, hd, hconfined⟩
  · exact ClearedWithin.refl env path t'
  · exact clearedWithin_of_confined hd hconfined

theorem Emptied.clearedWithin (h : Emptied env path t t') : ClearedWithin env path t t' := by
  obtain ⟨d, hd, -, hconfined, -⟩ := h
  exact clearedWithin_of_confined hd hconfined

theorem run_listdir (path : List Char) : (FsProg.listdir path).run (handler env) w =
    ((env.listdir w path).mapError .filesystem, ⟨w.tree, w.calls + 1⟩) :=
  run_perform _ _

/-- `os.listdir` refuses a NUL with a `ValueError`, which is not an `OSError`. -/
theorem run_execute_nul {path : String} (h : executor.Permits action path)
    (hnul : '\x00' ∈ path.toList) : ((executor.execute repr action).run (handler env) w).1 =
      .error (.filesystem FsEnvironment.embeddedNul) := by
  have hne : path ≠ "" := by
    intro hempty
    subst hempty
    cases hnul
  rw [execute_of_permits h hne, run_tryCatch, run_map]
  unfold clearDirectoryContents
  rw [run_bind, run_listdir, FsEnvironment.listdir_nul hnul]
  rfl

/-- An action names at most one path. -/
theorem PlaybookExecutor.Permits.eq {path path' : String} (h : executor.Permits action path)
    (h' : executor.Permits action path') : path' = path :=
  Option.some.inj (h'.2.1.symm.trans h.2.1)

theorem executesWithin_of_permits {path : String} (h : executor.Permits action path)
    (hnul : '\x00' ∉ path.toList) : ExecutesWithin env executor action w
      ((executor.execute repr action).run (handler env) w) := by
  have hrun := (runs_execute env repr w h hnul).run
  cases hr : ((executor.execute repr action).run (handler env) w).1 with
  | error e =>
    rw [hr] at hrun
    exact hrun.elim
  | ok result =>
    rw [hr] at hrun
    refine ⟨⟨result, hr⟩, fun hnone => absurd h (hnone path), ?_, ?_⟩
    · intro path' h'
      rw [h.eq h']
      exact hrun.elim (fun hend => hend.2.clearedWithin) fun hend => hend.2.clearedWithin
    · intro path' h' result' hresult' hexecuted
      rw [hr] at hresult'
      cases hresult'
      rw [h.eq h']
      rcases hrun with ⟨-, d, hd, hdir, hconfined, hnil⟩ | ⟨hfailed, -⟩
      · exact ⟨d, hd, (hconfined.node?_eq (not_beneath_self d)).trans hdir, hnil⟩
      · rw [hfailed] at hexecuted
        cases hexecuted

theorem executesWithin_of_not_permits (h : ∀ path, ¬ executor.Permits action path) :
    ExecutesWithin env executor action w
      ((executor.execute repr action).run (handler env) w) := by
  obtain ⟨result, hrun, hstatus⟩ := run_execute_of_not_permits env repr w h
  rw [hrun]
  refine ⟨⟨result, rfl⟩, fun _ => ⟨rfl, ?_⟩, fun path hpath => absurd hpath (h path),
    fun path hpath => absurd hpath (h path)⟩
  intro result' hresult' htype hexecuted
  cases hresult'
  have hfailed : result.status = .failed := hstatus fun hnoop => by simp [hnoop] at htype
  rw [hfailed] at hexecuted
  cases hexecuted

/-- Whatever the tree, its links and the failing calls: clearing a directory is confined to it, and
`execute` returns, except where an allowed path has a NUL in it. -/
theorem executesWithin_iff (env : FsEnvironment) (repr : TextRepr) (executor : PlaybookExecutor)
    (action : PendingAction) (w : FsWorld) :
    ExecutesWithin env executor action w
        ((executor.execute repr action).run (handler env) w) ↔
      ∀ path, executor.Permits action path → '\x00' ∉ path.toList := by
  constructor
  · intro h path hpermits hnul
    obtain ⟨result, hresult⟩ := h.returns
    rw [run_execute_nul hpermits hnul] at hresult
    cases hresult
  · intro hnul
    by_cases hpermits : ∃ path, executor.Permits action path
    · obtain ⟨path, hpermits⟩ := hpermits
      exact executesWithin_of_permits hpermits (hnul path hpermits)
    · exact executesWithin_of_not_permits fun path h => hpermits ⟨path, h⟩

namespace Scenario

/-- `/d` holds a file and a link to `/k`. -/
def linkedTree : FileTree where
  entries := [([['d']], .dir), ([['d'], ['a']], .file [1]), ([['d'], ['l']], .link ['/', 'k']),
    ([['k']], .dir), ([['k'], ['x']], .file [2])]
  nodup := by decide
  names := by decide
  parents := by decide

/-- No call fails. -/
def faultless : FsEnvironment where
  cwd := []
  maxLinks := 40
  fault _ := false
  strerror _ := ""
  order _ n := n
  left _ _ := true

/-- The link goes, and what it leads to stays. -/
example : ((clearDirectoryContents ['/', 'd']).run (handler faultless) ⟨linkedTree, 0⟩).2.tree.entries =
    [([['d']], .dir), ([['k']], .dir), ([['k'], ['x']], .file [2])] := by
  decide

/-- An allowed path with a NUL in it, dispatched. -/
theorem not_executesWithin : ¬ ∀ (env : FsEnvironment) (repr : TextRepr)
    (executor : PlaybookExecutor) (action : PendingAction) (w : FsWorld),
    ExecutesWithin env executor action w
      ((executor.execute repr action).run (handler env) w) := by
  intro h
  have hpermits : PlaybookExecutor.Permits ⟨{"/d\x00"}⟩
      ⟨1, .clearDirectory, [("path", "/d\x00")]⟩ "/d\x00" :=
    ⟨rfl, rfl, Finset.mem_singleton_self _⟩
  have hnul : '\x00' ∈ "/d\x00".toList := by decide
  obtain ⟨result, hresult⟩ := (h faultless id _ _ ⟨linkedTree, 0⟩).returns
  rw [run_execute_nul hpermits hnul] at hresult
  cases hresult

end Scenario

end ClusterPulse
