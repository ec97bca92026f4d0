import ClusterPulse.Lib.Interleaving
import ClusterPulse.Proof.BufferText

/-!
# Faults of the buffer file

A call of the buffer reads the file, writes the temporary file and renames it.  A step may fail with an
`OSError`, and the process may be killed between two steps.  Until the rename the file is as it was, so
all that can go wrong is a read that fails: the call goes on as if the file were empty, and what it then
writes takes the place of a backlog that it has not seen (`faultSafe_iff`).
-/

namespace ClusterPulse

open Json Prog TextFile

/-- One fault in the course of a call.  A write that fails may leave anything in the temporary file. -/
inductive FileFault where
  | readFails (e : OSError)
  | writeFails (e : OSError) (left : Option (List UInt8))
  | renameFails (e : OSError)
  | killed (steps : Fin 3)
deriving DecidableEq

/-- The steps on the file, one of which fails. -/
def FileFault.handle (fault : FileFault) : Handler FileStep FileStep.Res AgentError BufferFile
  | .readText, file =>
    match fault with
    | .readFails e => (.ok (.error e), file)
    | _ => FileStep.handle .readText file
  | .writeText content, file =>
    match fault with
    | .writeFails e left => (.ok (.error e), { file with tmp := left })
    | _ => FileStep.handle (.writeText content) file
  | .replace, file =>
    match fault with
    | .renameFails e => (.ok (.error e), file)
    | _ => FileStep.handle .replace file

/-- How a call ends, if it does, and the file it leaves. -/
def FileFault.after {α : Type} (fault : FileFault) (p : Prog FileStep FileStep.Res AgentError α)
    (file : BufferFile) : Option (Except AgentError α) × BufferFile :=
  match fault with
  | .killed steps =>
    ((p.nextN FileStep.handle steps file).1.outcome, (p.nextN FileStep.handle steps file).2)
  | _ => (some (p.run fault.handle file).1, (p.run fault.handle file).2)

/-- A call that changes the buffer. -/
inductive BufferCall where
  | enqueue (payload : NodeMetricsPayload)
  | drain (maxItems : ℕ)

namespace BufferCall

open FileBuffer PydanticJson

variable {j : PydanticJson} {maxEntries : ℤ} {call : BufferCall} {fault : FileFault}
  {file : BufferFile}

/-- The code of the call; enqueueing returns no payloads. -/
def program (j : PydanticJson) (maxEntries : ℤ) :
    BufferCall → Prog FileStep FileStep.Res AgentError (List NodeMetricsPayload)
  | enqueue p => do
    (onFile j maxEntries).enqueue p
    return []
  | drain maxItems => (onFile j maxEntries).drain maxItems

/-- The payloads that a call keeps, of those that were there. -/
def kept (maxEntries : ℤ) : BufferCall → List NodeMetricsPayload → List NodeMetricsPayload
  | enqueue p, entries => evict maxEntries (entries ++ [p])
  | drain maxItems, entries => entries.drop maxItems

/-- The payloads that it returns. -/
def returned : BufferCall → List NodeMetricsPayload → List NodeMetricsPayload
  | enqueue _, _ => []
  | drain maxItems, entries => entries.take maxItems

/-- The file decodes as before, or to what the call should make of it; then the call has returned what
it should return. -/
def FaultSafe (j : PydanticJson) (maxEntries : ℤ) (call : BufferCall) (fault : FileFault)
    (file : BufferFile) : Prop :=
  let after := fault.after (call.program j maxEntries) file
  decodeFile j after.2.main = decodeFile j file.main ∨
    ∃ entries, decodeFile j file.main = .ok entries ∧
      decodeFile j after.2.main = .ok (call.kept maxEntries entries) ∧
      after.1 = some (.ok (call.returned entries))

/-- It does no harm to take these payloads for none. -/
def Harmless (j : PydanticJson) (maxEntries : ℤ) : BufferCall → List NodeMetricsPayload → Prop
  | enqueue p, entries => maxEntries ≤ 0 ∨ entries = [] ∨
      j.Restorable p ∧ (entries = [p] ∨ maxEntries = 1)
  | drain _, entries => entries = []

/-- Both calls read everything and write what they keep. -/
theorem program_eq : call.program j maxEntries = readFile j >>= fun entries =>
    writeFile j (call.kept maxEntries entries) >>= fun _ => .pure (call.returned entries) := by
  cases call with
  | enqueue p => exact bind_assoc' ..
  | drain maxItems => rfl

/-! ## Faults in front of the rename -/

/-- A step in front of the rename, as far as the file is concerned. -/
theorem run_readFile_of_fault (hfault : ∀ e, fault ≠ .readFails e) :
    (readFile j).run fault.handle file = (decodeFile j file.main, file) := by
  have hread : (readFile j).run fault.handle file =
      (Prog.lift (decodeFile j file.main)).run fault.handle file := by
    cases fault with
    | readFails e => exact absurd rfl (hfault e)
    | writeFails e left => rfl
    | renameFails e => rfl
    | killed steps => rfl
  rw [hread]
  cases decodeFile j file.main with
  | ok entries => rfl
  | error e => rfl

/-- Only after a failed read does a call with a fault get as far as the rename. -/
theorem main_after (hfault : ∀ e, fault ≠ .readFails e) :
    (fault.after (call.program j maxEntries) file).2.main = file.main := by
  rw [program_eq]
  cases fault with
  | readFails e => exact absurd rfl (hfault e)
  | writeFails e left =>
    show (Prog.run _ _ file).2.main = _
    rw [run_bind, run_readFile_of_fault hfault]
    cases decodeFile j file.main with
    | ok entries => rfl
    | error e => rfl
  | renameFails e =>
    show (Prog.run _ _ file).2.main = _
    rw [run_bind, run_readFile_of_fault hfault]
    cases decodeFile j file.main with
    | ok entries => rfl
    | error e => rfl
  | killed steps =>
    match steps with
    | 0 => rfl
    | 1 => rfl
    | 2 =>
      -- after the read the payloads are known, unless the file is no text
      show ((Prog.lift (decodeFile j file.main) >>= _).next FileStep.handle file).2.main = _
      cases decodeFile j file.main with
      | ok entries => rfl
      | error e => rfl

theorem after_readFails (e : OSError) :
    (FileFault.readFails e).after (call.program j maxEntries) file =
      (some (.ok (call.returned [])), ⟨encode (j.fileText (call.kept maxEntries [])), none⟩) := by
  rw [program_eq]
  rfl

/-! ## What a call writes after a failed read -/

theorem evict_of_nonpos (h : maxEntries ≤ 0) (entries : List NodeMetricsPayload) :
    evict maxEntries entries = [] := by
  unfold evict
  split_ifs with hlt
  · exact List.drop_eq_nil_of_le (by omega)
  · exact List.eq_nil_of_length_eq_zero (by omega)

theorem length_evict (h : 0 ≤ maxEntries) (entries : List NodeMetricsPayload) :
    (evict maxEntries entries).length = min entries.length maxEntries.toNat := by
  unfold evict
  split_ifs with hlt
  · rw [List.length_drop]
    omega
  · omega

/-- The new payload is all that is kept. -/
theorem evict_append_singleton_iff {p : NodeMetricsPayload} {entries : List NodeMetricsPayload}
    (h : 0 < maxEntries) :
    evict maxEntries (entries ++ [p]) = [p] ↔ entries = [] ∨ maxEntries = 1 := by
  constructor
  · intro hevict
    have hlength := length_evict h.le (entries ++ [p])
    rw [hevict, List.length_append, List.length_singleton] at hlength
    by_cases hentries : entries = []
    · exact .inl hentries
    · have hpos := List.length_pos_of_ne_nil hentries
      exact .inr (by omega)
  · rintro (rfl | rfl)
    · exact evict_of_le (by rw [List.nil_append, List.length_singleton]; omega)
    · unfold evict
      rw [List.length_append, List.length_singleton]
      split_ifs with hlt
      · have hdrop : ((entries.length + 1 : ℕ) - (1 : ℤ)).toNat = entries.length := by omega
        rw [hdrop, List.drop_left]
      · rw [List.eq_nil_of_length_eq_zero (l := entries) (by omega), List.nil_append]

theorem evict_append_singleton_ne_nil {p : NodeMetricsPayload} {entries : List NodeMetricsPayload}
    (h : 0 < maxEntries) : evict maxEntries (entries ++ [p]) ≠ [] := by
  intro hevict
  have hlength := length_evict h.le (entries ++ [p])
  rw [hevict, List.length_append, List.length_singleton, List.length_nil] at hlength
  omega

/-- One payload on its own, as it is read back. -/
theorem decodeFile_singleton {p : NodeMetricsPayload} (hj : j.Documented)
    (hp : ∀ q, j.validateJson (j.modelDumpJson p) = some q → q = p) :
    j.Restorable p ∧ decodeFile j (encode (j.fileText [p])) = .ok [p] ∨
      ¬ j.Restorable p ∧ decodeFile j (encode (j.fileText [p])) = .ok [] := by
  have hdecode : decodeFile j (encode (j.fileText [p])) =
      .ok (j.payloadsIn (j.modelDumpJson p)) := by
    rw [decodeFile_fileText, List.flatMap_cons, List.flatMap_nil, List.append_nil]
  rw [hdecode]
  by_cases hrestorable : j.Restorable p
  · exact .inl ⟨hrestorable, by rw [hrestorable.payloadsIn hj]⟩
  · refine .inr ⟨hrestorable, congrArg _ ?_⟩
    rw [payloadsIn_modelDumpJson hj]
    split_ifs with hseparator
    · rfl
    · cases hvalid : j.validateJson (j.modelDumpJson p) with
      | none => rfl
      | some q =>
        rw [hp q hvalid] at hvalid
        exact absurd ⟨Bool.eq_false_of_not_eq_true hseparator, hvalid⟩ hrestorable

theorem faultSafe_readFails_drain (e : OSError) (maxItems : ℕ) :
    FaultSafe j maxEntries (drain maxItems) (.readFails e) file ↔
      decodeFile j file.main = .ok [] := by
  have hempty : decodeFile j (encode (j.fileText (([] : List NodeMetricsPayload).drop maxItems))) =
      .ok [] := by
    rw [List.drop_nil]
    exact decodeFile_encode []
  unfold FaultSafe
  rw [after_readFails]
  dsimp only [kept, returned]
  rw [hempty]
  constructor
  · rintro (hsame | ⟨entries, hentries, hkept, hreturned⟩)
    · exact hsame.symm
    · rw [hentries, ← List.take_append_drop maxItems entries, ← Except.ok.inj hkept,
        ← Except.ok.inj (Option.some.inj hreturned), List.take_nil, List.append_nil]
  · exact fun h => .inl h.symm

theorem faultSafe_readFails_enqueue {p : NodeMetricsPayload} (hj : j.Documented)
    (hp : ∀ q, j.validateJson (j.modelDumpJson p) = some q → q = p) (e : OSError) :
    FaultSafe j maxEntries (enqueue p) (.readFails e) file ↔
      ∃ entries, decodeFile j file.main = .ok entries ∧
        Harmless j maxEntries (enqueue p) entries := by
  unfold FaultSafe
  rw [after_readFails]
  dsimp only [kept, returned, Harmless]
  rw [List.nil_append]
  by_cases hmax : maxEntries ≤ 0
  · have hnone : decodeFile j (encode (j.fileText (evict maxEntries [p]))) = .ok [] := by
      rw [evict_of_nonpos hmax]
      exact decodeFile_encode []
    rw [hnone]
    constructor
    · rintro (hsame | ⟨entries, hentries, -⟩)
      · exact ⟨[], hsame.symm, .inl hmax⟩
      · exact ⟨entries, hentries, .inl hmax⟩
    · rintro ⟨entries, hentries, -⟩
      exact .inr ⟨entries, hentries, by rw [evict_of_nonpos hmax], rfl⟩
  · have hpos : 0 < maxEntries := not_le.1 hmax
    have hone : evict maxEntries [p] = [p] :=
      evict_of_le (by rw [List.length_singleton]; omega)
    rw [hone]
    obtain ⟨hrestorable, hread⟩ | ⟨hlost, hread⟩ := decodeFile_singleton hj hp
    · rw [hread]
      constructor
      · rintro (hsame | ⟨entries, hentries, hkept, -⟩)
        · exact ⟨[p], hsame.symm, .inr (.inr ⟨hrestorable, .inl rfl⟩)⟩
        · obtain hnil | hmax := (evict_append_singleton_iff hpos).1 (Except.ok.inj hkept).symm
          · exact ⟨entries, hentries, .inr (.inl hnil)⟩
          · exact ⟨entries, hentries, .inr (.inr ⟨hrestorable, .inr hmax⟩)⟩
      · rintro ⟨entries, hentries, hnonpos | hnil | ⟨-, rfl | hmax⟩⟩
        · exact absurd hnonpos hmax
        · exact .inr ⟨entries, hentries,
            by rw [(evict_append_singleton_iff hpos).2 (.inl hnil)], rfl⟩
        · exact .inl hentries.symm
        · exact .inr ⟨entries, hentries,
            by rw [(evict_append_singleton_iff hpos).2 (.inr hmax)], rfl⟩
    · rw [hread]
      constructor
      · rintro (hsame | ⟨entries, hentries, hkept, -⟩)
        · exact ⟨[], hsame.symm, .inr (.inl rfl)⟩
        · exact absurd (Except.ok.inj hkept).symm (evict_append_singleton_ne_nil hpos)
      · rintro ⟨entries, hentries, hnonpos | rfl | ⟨hrestorable, -⟩⟩
        · exact absurd hnonpos hmax
        · exact .inl hentries.symm
        · exact absurd hrestorable hlost

/-- No fault does harm but a failed read, and that one unless the file is text and the call would have
left the same of its payloads as of none. -/
theorem faultSafe_iff (hj : j.Documented)
    (hcall : ∀ p q, call = enqueue p → j.validateJson (j.modelDumpJson p) = some q → q = p)
    (fault : FileFault) (file : BufferFile) :
    FaultSafe j maxEntries call fault file ↔ ∀ e, fault = .readFails e →
      ∃ entries, decodeFile j file.main = .ok entries ∧ Harmless j maxEntries call entries := by
  by_cases hfault : ∃ e, fault = .readFails e
  · obtain ⟨e, rfl⟩ := hfault
    have hread : FaultSafe j maxEntries call (.readFails e) file ↔
        ∃ entries, decodeFile j file.main = .ok entries ∧ Harmless j maxEntries call entries := by
      cases call with
      | enqueue p => exact faultSafe_readFails_enqueue hj (fun q hq => hcall p q rfl hq) e
      | drain maxItems =>
        rw [faultSafe_readFails_drain]
        constructor
        · exact fun h => ⟨[], h, rfl⟩
        · rintro ⟨entries, h, rfl⟩
          exact h
    rw [hread]
    constructor
    · exact fun h _ _ => h
    · exact fun h => h e rfl
  · constructor
    · exact fun _ e h => absurd ⟨e, h⟩ hfault
    · intro _
      refine .inl ?_
      rw [main_after fun e h => hfault ⟨e, h⟩]

end BufferCall

namespace Scenario

open BufferCall FileBuffer

/-- The buffer file with one payload in it. -/
def backlogFile : BufferFile := ⟨encode ((pydantic "node-1").fileText [julyPayload "node-1"]), none⟩

theorem decodeFile_backlogFile :
    decodeFile (pydantic "node-1") backlogFile.main = .ok [julyPayload "node-1"] := by
  refine decodeFile_restorable documented_plain fun p hp => ?_
  obtain rfl := List.mem_singleton.1 hp
  exact ⟨by decide +kernel, validateJson_julyPayload "node-1"⟩

theorem faultSafe_iff_backlogFile :
    FaultSafe (pydantic "node-1") 10 (.enqueue (julyPayload "node-1"))
        (.readFails ⟨"Input/output error"⟩) backlogFile ↔
      ∀ e, FileFault.readFails ⟨"Input/output error"⟩ = .readFails e →
        ∃ entries, decodeFile (pydantic "node-1") backlogFile.main = .ok entries ∧
          Harmless (pydantic "node-1") 10 (.enqueue (julyPayload "node-1")) entries := by
  refine faultSafe_iff documented_plain (fun p q hcall hq => ?_) _ _
  obtain rfl := BufferCall.enqueue.inj hcall
  exact (eq_julyPayload hq).2

/-- A file that cannot be read for a moment is drained of everything, and nothing is returned. -/
theorem not_faultSafe : ¬ ∀ (j : PydanticJson) (maxEntries : ℤ) (call : BufferCall)
    (fault : FileFault) (file : BufferFile), j.Documented →
      (∀ p q, call = .enqueue p → j.validateJson (j.modelDumpJson p) = some q → q = p) →
      FaultSafe j maxEntries call fault file := by
  intro h
  have hsafe := h (pydantic "node-1") 10 (.drain 5) (.readFails ⟨"Input/output error"⟩) backlogFile
    documented_plain fun _ _ hcall _ => by cases hcall
  have hempty := (faultSafe_readFails_drain _ 5).1 hsafe
  rw [decodeFile_backlogFile] at hempty
  cases hempty

end Scenario

end ClusterPulse
