import ClusterPulse.Proof.BufferPlace

/-!
# What may be in the place of the buffer file

A weaker invariant than `BufferAt`, which no fault breaks and no executor: where the path of the buffer
leads, nothing need be; but what there is holds a content of which `G` is true, and no link is in the
way of a write.  A write that fails leaves anything in the temporary file, which is moved only after a
write that did not fail.
-/

namespace ClusterPulse

open Prog FileTree FileBuffer
open NodeProgram (ask onFile)

/-- The directories that the path can lead to satisfy `D`; in these, the buffer file holds a `G`. -/
structure Site (env : FsEnvironment) (path : PurePath) (D : Location → Prop) (G : List UInt8 → Prop)
    (t : FileTree) : Prop where
  holder : ∀ d, env.holder t path = some d → D d
  main : ∀ d, D d → ∀ node, t.node? (d ++ [path.name]) = some node →
    node = .dir ∨ ∃ content, node = .file content ∧ G content
  tmp : ∀ d, D d → ∀ target, t.node? (d ++ [tmpName path]) ≠ some (.link target)

section Site

variable {env : FsEnvironment} {path tmp : PurePath} {D : Location → Prop} {G : List UInt8 → Prop}
  {t t' : FileTree} {d l : Location} {content : List UInt8} {file : BufferFile}

theorem BufferAt.site (h : BufferAt env path t d file) (hG : G file.main) :
    Site env path (· = d) G t where
  holder d' hd' := Option.some.inj (hd'.symm.trans h.holder)
  main := by
    rintro _ rfl node hnode
    rw [h.main] at hnode
    exact .inr ⟨file.main, (Option.some.inj hnode).symm, hG⟩
  tmp := by
    rintro _ rfl target
    exact h.tmp_ne _ nofun

/-- Removing entries leaves it so. -/
theorem Site.of_le (h : Site env path D G t) (hle : t' ≤ t) : Site env path D G t' where
  holder d hd := h.holder d (walk_mono hle _ hd)
  main d hd node hnode := h.main d hd node (node?_of_le hle hnode)
  tmp d hd target htarget := h.tmp d hd target (node?_of_le hle htarget)

section Places

variable (h : Site env path D G t)
include h

theorem Site.main_ne_link (hl : env.placeOf t path = some l) (target : List Char) :
    t.node? l ≠ some (.link target) := by
  obtain ⟨-, d, hd, rfl⟩ := FsEnvironment.placeOf_eq_some_iff.1 hl
  intro hlink
  obtain hdir | ⟨content, hfile, -⟩ := h.main d (h.holder d hd) _ hlink
  · cases hdir
  · cases hfile

theorem Site.read (hread : env.read t path = some content) : G content := by
  unfold FsEnvironment.read at hread
  split at hread
  · rename_i content' hnode
    obtain rfl := Option.some.inj hread
    obtain ⟨l, hl, hnode⟩ := Option.bind_eq_some_iff.1 hnode
    have hplace : env.placeOf t path = some l :=
      placeOf_of_landing hl fun l' target hl' => h.main_ne_link hl' target
    obtain ⟨-, d, hd, rfl⟩ := FsEnvironment.placeOf_eq_some_iff.1 hplace
    obtain hdir | ⟨content, hfile, hG⟩ := h.main d (h.holder d hd) _ hnode
    · cases hdir
    · obtain rfl := FileNode.file.inj hfile
      exact hG
  · cases hread

theorem Site.landing_tmp (htmp : tmpPath path = .ok tmp) (hl : env.landing t tmp = some l) :
    ∃ d, env.holder t path = some d ∧ l = d ++ [tmpName path] := by
  refine placeOf_tmp htmp (placeOf_of_landing hl fun l' target hl' => ?_)
  obtain ⟨d, hd, rfl⟩ := placeOf_tmp htmp hl'
  exact h.tmp d (h.holder d hd) target

/-- A write changes the temporary file only. -/
theorem Site.write (htmp : tmpPath path = .ok tmp) (hwrite : env.write t tmp content = some t') :
    Site env path D G t' ∧ ∀ d, env.holder t' path = some d →
      t'.node? (d ++ [tmpName path]) = some (.file content) := by
  obtain ⟨l, hl, htakes, rfl⟩ := FsEnvironment.write_eq_some_iff.1 hwrite
  obtain ⟨d, hd, rfl⟩ := h.landing_tmp htmp hl
  have hsame : SameDirs t (t.put _ (.file content) htakes) :=
    sameDirs_put (h.tmp d (h.holder d hd))
  refine ⟨⟨fun d' hd' => ?_, fun d' hD node hnode => ?_, fun d' hD target => ?_⟩, fun d' hd' => ?_⟩
  · rw [FsEnvironment.holder_congr hsame] at hd'
    exact h.holder d' hd'
  · have hne : d' ++ [path.name] ≠ d ++ [tmpName path] := fun heq =>
      tmpName_ne path (List.singleton_injective (List.append_inj_right' heq rfl)).symm
    rw [node?_put, if_neg hne] at hnode
    exact h.main d' hD node hnode
  · rw [node?_put]
    split_ifs
    · exact nofun
    · exact h.tmp d' hD target
  · rw [FsEnvironment.holder_congr hsame] at hd'
    obtain rfl := Option.some.inj (hd'.symm.trans hd)
    rw [node?_put, if_pos rfl]

/-- What is moved is a `G`. -/
theorem Site.replace (htmp : tmpPath path = .ok tmp) (hreplace : env.replace t tmp path = some t')
    (hG : ∀ d content, env.holder t path = some d →
      t.node? (d ++ [tmpName path]) = some (.file content) → G content) :
    Site env path D G t' := by
  obtain ⟨l, node, hl, hnode, hdir, rfl | ⟨l', hl', htakes, rfl⟩⟩ :=
    FsEnvironment.replace_some hreplace
  · exact h
  · obtain ⟨d, hd, rfl⟩ := placeOf_tmp htmp hl
    cases node with
    | dir => exact absurd rfl hdir
    | link target => exact absurd hnode (h.tmp d (h.holder d hd) target)
    | file content =>
      have hcontent := hG d content hd hnode
      have hnode' : ∀ l', (t.removeAt (d ++ [tmpName path])).node? l' =
          if l' = d ++ [tmpName path] then none else t.node? l' := fun l' =>
        node?_removeAt (by rw [hnode]; exact nofun)
      have hsame : SameDirs t ((t.removeAt (d ++ [tmpName path])).put l' (.file content) htakes) := by
        refine (sameDirs_removeAt hnode).trans (sameDirs_put fun target => ?_)
        rw [hnode']
        split_ifs
        · exact nofun
        · exact h.main_ne_link hl' target
      obtain ⟨-, d', hd', rfl⟩ := FsEnvironment.placeOf_eq_some_iff.1 hl'
      refine ⟨fun d' hd' => ?_, fun d' hD node hnode => ?_, fun d' hD target => ?_⟩
      · rw [FsEnvironment.holder_congr hsame] at hd'
        exact h.holder d' hd'
      · rw [node?_put] at hnode
        split_ifs at hnode
        · exact .inr ⟨content, (Option.some.inj hnode).symm, hcontent⟩
        · rw [hnode'] at hnode
          split_ifs at hnode
          exact h.main d' hD node hnode
      · rw [node?_put]
        split_ifs
        · exact nofun
        · rw [hnode']
          split_ifs
          · exact nofun
          · exact h.tmp d' hD target

end Places

/-- Where the path may lead anywhere, directories and empty files can be made. -/
theorem Site.put {node : FileNode} {htakes : t.Takes l} (h : Site env path (fun _ => True) G t)
    (hnode : node = .dir ∨ node = .file [] ∧ G []) :
    Site env path (fun _ => True) G (t.put l node htakes) where
  holder _ _ := trivial
  main d hD node' hnode' := by
    rw [node?_put] at hnode'
    split_ifs at hnode'
    · obtain rfl := Option.some.inj hnode'
      exact hnode.imp_right fun hempty => ⟨[], hempty⟩
    · exact h.main d hD node' hnode'
  tmp d hD target := by
    rw [node?_put]
    split_ifs
    · rintro hlink
      obtain rfl := Option.some.inj hlink
      obtain hdir | ⟨hfile, -⟩ := hnode
      · cases hdir
      · cases hfile
    · exact h.tmp d hD target

theorem Site.setUp {call : PathCall} (h : Site env path (fun _ => True) G t) (hempty : G [])
    (hcall : call.IsSetUp) (hstep : PathStep env t call t') :
    Site env path (fun _ => True) G t' := by
  cases hstep with
  | same => exact h
  | mkdir hmkdir =>
    obtain ⟨l, -, htakes, rfl⟩ := FsEnvironment.mkdir_ok hmkdir
    exact h.put (.inl rfl)
  | touch htouch =>
    obtain rfl | ⟨l, -, -, htakes, rfl⟩ := FsEnvironment.touch_some htouch
    · exact h
    · exact h.put (.inr ⟨rfl, hempty⟩)
  | write | replace => exact hcall.elim

end Site

/-! ## The buffer on a node with faults -/

section Node

variable {ω : Type} {env : NodeEnvironment ω} {path tmp : PurePath} {D : Location → Prop}
  {G : List UInt8 → Prop} {w : Node ω} {j : PydanticJson}

theorem hasNul_tmp (htmp : tmpPath path = .ok tmp) (h : path.hasNul = false) : tmp.hasNul = false := by
  obtain rfl := tmpPath_ok htmp
  unfold PurePath.hasNul at h ⊢
  rw [List.any_eq_false] at h ⊢
  intro part hpart
  rcases List.mem_append.1 hpart with hpart | hpart
  · exact h part (List.mem_of_mem_dropLast hpart)
  · rw [List.mem_singleton.1 hpart, tmpName, decide_eq_true_iff, List.mem_append, not_or]
    refine ⟨fun hname => ?_, by decide⟩
    unfold PurePath.name at hname
    rw [List.getLastD_eq_getLast?] at hname
    cases hlast : path.parts.getLast? with
    | none =>
      rw [hlast] at hname
      cases hname
    | some name =>
      rw [hlast] at hname
      exact h name (List.mem_of_getLast? hlast) (decide_eq_true hname)

/-- A change that succeeded is one of the filesystem. -/
theorem changed_of_answer {n : ℕ} {changed : Option FileTree} {failed t : FileTree}
    (h : env.answer n (changed.map fun _ => ()) = .ok ()) :
    changed = some (env.outcome n changed failed t) := by
  unfold NodeEnvironment.answer at h
  unfold NodeEnvironment.outcome
  cases hfault : env.fileFault n with
  | some e =>
    rw [hfault] at h
    cases h
  | none =>
    cases changed with
    | none =>
      rw [hfault] at h
      cases h
    | some t' => rfl

theorem fileSteps_of_tmpPath_error {e : AgentError} {step : FileStep} (htmp : tmpPath path = .error e)
    (hstep : step ≠ .readText) : env.fileSteps path step w = (.error e, w) := by
  cases step with
  | readText => exact absurd rfl hstep
  | writeText | replace =>
    unfold NodeEnvironment.fileSteps stepAt
    rw [htmp]
    rfl

section Steps

variable (h : Site env.fs path D G w.disk.tree)
include h

theorem Site.fileSteps_readText : SameNode w (env.fileSteps path .readText w).2 ∧
    (∀ content, (env.fileSteps path .readText w).1 = .ok (.ok content) → G content) ∧
    ∀ e, (env.fileSteps path .readText w).1 = .error e → path.hasNul = true := by
  have htree : (env.pathAnswer w.calls w.disk.tree (.readText path)).2 = w.disk.tree := by
    simp only [NodeEnvironment.pathAnswer]
    split_ifs <;> rfl
  refine ⟨sameNode_path htree, fun content hcontent => ?_, fun e he => ?_⟩
  · change ((ask (.readText path)).run env.handle w).1 = _ at hcontent
    rw [ask_answer] at hcontent
    simp only [NodeEnvironment.pathAnswer] at hcontent
    split_ifs at hcontent
    have hanswer := Except.ok.inj hcontent
    unfold NodeEnvironment.answer at hanswer
    split at hanswer
    · cases hanswer
    · rename_i content' _ hread
      obtain rfl := Except.ok.inj hanswer
      exact h.read hread
    · cases hanswer
  · change ((ask (.readText path)).run env.handle w).1 = _ at he
    rw [ask_answer] at he
    simp only [NodeEnvironment.pathAnswer] at he
    split_ifs at he with hnul
    exact hnul

/-- After a write that did not fail, the content is in the temporary file. -/
theorem Site.fileSteps_writeText (content : List UInt8) :
    (Site env.fs path D G (env.fileSteps path (.writeText content) w).2.disk.tree ∧
      (env.fileSteps path (.writeText content) w).2.outside = w.outside) ∧
    ((env.fileSteps path (.writeText content) w).1 = .ok (.ok ()) →
      ∀ d, env.fs.holder (env.fileSteps path (.writeText content) w).2.disk.tree path = some d →
        (env.fileSteps path (.writeText content) w).2.disk.tree.node? (d ++ [tmpName path]) =
          some (.file content)) ∧
    ∀ e, (env.fileSteps path (.writeText content) w).1 = .error e →
      tmpPath path = .error e ∨ path.hasNul = true := by
  cases htmp : tmpPath path with
  | error e =>
    have hrun : env.fileSteps path (.writeText content) w = (.error e, w) :=
      fileSteps_of_tmpPath_error htmp nofun
    rw [hrun]
    exact ⟨⟨h, rfl⟩, nofun, fun e' he' => .inl (congrArg Except.error (Except.error.inj he'))⟩
  | ok tmp =>
    rw [fileSteps_writeText_eq htmp, ask_tree, ask_answer]
    refine ⟨⟨?_, ask_outside env w _⟩, fun hanswer => ?_, fun e he => ?_⟩
    · have hstep := pathStep env w.calls w.disk.tree (.writeText tmp content)
      generalize (env.pathAnswer w.calls w.disk.tree (.writeText tmp content)).2 = t' at hstep
      cases hstep with
      | same => exact h
      | write hwrite => exact (h.write htmp hwrite).1
    · simp only [NodeEnvironment.pathAnswer] at hanswer ⊢
      split_ifs at hanswer ⊢
      exact (h.write htmp (changed_of_answer (Except.ok.inj hanswer))).2
    · simp only [NodeEnvironment.pathAnswer] at he
      split_ifs at he with hnul
      right
      by_contra hpath
      rw [hasNul_tmp htmp (by simpa using hpath)] at hnul
      cases hnul

theorem Site.fileSteps_replace
    (hG : ∀ d content, env.fs.holder w.disk.tree path = some d →
      w.disk.tree.node? (d ++ [tmpName path]) = some (.file content) → G content) :
    (Site env.fs path D G (env.fileSteps path .replace w).2.disk.tree ∧
      (env.fileSteps path .replace w).2.outside = w.outside) ∧
    ∀ e, (env.fileSteps path .replace w).1 = .error e →
      tmpPath path = .error e ∨ path.hasNul = true := by
  cases htmp : tmpPath path with
  | error e =>
    have hrun : env.fileSteps path .replace w = (.error e, w) :=
      fileSteps_of_tmpPath_error htmp nofun
    rw [hrun]
    exact ⟨⟨h, rfl⟩, fun e' he' => .inl (congrArg Except.error (Except.error.inj he'))⟩
  | ok tmp =>
    rw [fileSteps_replace_eq htmp, ask_tree, ask_answer]
    refine ⟨⟨?_, ask_outside env w _⟩, fun e he => ?_⟩
    · have hstep := pathStep env w.calls w.disk.tree (.replace tmp path)
      generalize (env.pathAnswer w.calls w.disk.tree (.replace tmp path)).2 = t' at hstep
      cases hstep with
      | same => exact h
      | replace hreplace => exact h.replace htmp hreplace hG
    · simp only [NodeEnvironment.pathAnswer] at he
      split_ifs at he with hnul
      right
      by_contra hpath
      rw [hasNul_tmp htmp (by simpa using hpath), Bool.false_or] at hnul
      exact hpath hnul

end Steps

section Programs

/-- Around the calls of the buffer, nothing changes behind the network. -/
abbrev SameOutside (w w' : Node ω) : Prop := w'.outside = w.outside

/-- A read yields nothing, or what a `G` decodes to. -/
theorem runs_readSite (hG : ∀ content, G content → ∃ entries, decodeFile j content = .ok entries)
    (h : Site env.fs path D G w.disk.tree) :
    Runs env.handle (fun w w' => SameOutside w w' ∧ Site env.fs path D G w'.disk.tree)
      (onFile path (readFile j)) w
      (Ends (fun entries w' => (entries = [] ∨ ∃ content, G content ∧
        decodeFile j content = .ok entries) ∧ Site env.fs path D G w'.disk.tree)
        fun _ w' => path.hasNul = true ∧ Site env.fs path D G w'.disk.tree) := by
  obtain ⟨hsame, hok, herror⟩ := h.fileSteps_readText
  have hsite : Site env.fs path D G (env.fileSteps path .readText w).2.disk.tree := by
    rwa [hsame.tree]
  refine runs_onFile ⟨⟨hsame.outside, hsite⟩, ?_⟩
  generalize env.fileSteps path .readText w = outcome at hok herror hsite
  obtain ⟨e | e | content, w'⟩ := outcome
  · exact ⟨herror e rfl, hsite⟩
  · exact ⟨.inl rfl, hsite⟩
  · have hcontent := hok content rfl
    obtain ⟨entries, hentries⟩ := hG content hcontent
    show Runs _ _ (lift (decodeFile j content)) _ _
    rw [hentries]
    exact ⟨.inr ⟨content, hcontent, hentries⟩, hsite⟩

/-- The buffer file becomes what was written, or stays as it was. -/
theorem runs_writeSite {entries : List NodeMetricsPayload}
    (hG : G (TextFile.encode (j.fileText entries))) (h : Site env.fs path D G w.disk.tree) :
    Runs env.handle (fun w w' => SameOutside w w' ∧ Site env.fs path D G w'.disk.tree)
      (onFile path (writeFile j entries)) w
      (Ends (fun _ w' => Site env.fs path D G w'.disk.tree) fun e w' =>
        (tmpPath path = .error e ∨ path.hasNul = true) ∧ Site env.fs path D G w'.disk.tree) := by
  obtain ⟨hwritten, hok, herror⟩ := h.fileSteps_writeText (TextFile.encode (j.fileText entries))
  refine runs_onFile ⟨⟨hwritten.2, hwritten.1⟩, ?_⟩
  generalize env.fileSteps path (.writeText (TextFile.encode (j.fileText entries))) w = outcome
    at hwritten hok herror
  obtain ⟨e | e | _, w₁⟩ := outcome
  · exact ⟨herror e rfl, hwritten.1⟩
  · exact hwritten.1
  · have hcontent : ∀ d content, env.fs.holder w₁.disk.tree path = some d →
        w₁.disk.tree.node? (d ++ [tmpName path]) = some (.file content) → G content := by
      intro d content hd hnode
      rw [hok rfl d hd] at hnode
      rwa [← FileNode.file.inj (Option.some.inj hnode)]
    obtain ⟨hreplaced, herror'⟩ := hwritten.1.fileSteps_replace hcontent
    refine ⟨⟨hreplaced.2, hreplaced.1⟩, ?_⟩
    generalize env.fileSteps path .replace w₁ = outcome at hreplaced herror'
    obtain ⟨e | _, w₂⟩ := outcome
    · exact ⟨herror' e rfl, hreplaced.1⟩
    · exact hreplaced.1

end Programs

end Node

end ClusterPulse
