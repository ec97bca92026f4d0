import ClusterPulse.Agent.Buffer

/-!
# What is read back from the buffer file

The buffer joins its records with newlines and cuts them apart with `splitlines`, which also cuts at
U+0085, U+2028 and U+2029.  JSON carries these in a string as they are, so a payload with one of them
is cut inside a string, and none of its parts is a payload.  `roundTrip_iff`: what was written is read
back exactly if no text of the payloads has such a separator.
-/

namespace ClusterPulse

open Json Prog TextFile

/-- The strings of a payload that come from outside. -/
def NodeMetricsPayload.texts (p : NodeMetricsPayload) : List String :=
  p.nodeId :: (p.samples.flatMap fun s => s.unit :: s.labels.flatMap fun label =>
    [label.1, label.2]) ++ p.collectionErrors

/-- One of them has a line boundary that JSON does not escape. -/
def NodeMetricsPayload.hasSeparator (p : NodeMetricsPayload) : Bool :=
  p.texts.any fun s => s.toList.any isSeparator

namespace PydanticJson

/-- What is assumed of pydantic: the text of a number has no quote, no backslash and no line boundary,
the text of a datetime has no separator, and a line that validates is JSON with a member `node_id`. -/
structure Documented (j : PydanticJson) : Prop where
  floatText : ∀ x, ∀ c ∈ j.floatText x, c ≠ '"' ∧ c ≠ '\\' ∧ isLineBreak c = false
  datetimeText : ∀ t, (j.datetimeText t).any isSeparator = false
  validateJson : ∀ text p, j.validateJson text = some p → Readable "node_id".toList text

variable {j : PydanticJson} {p : NodeMetricsPayload} {entries : List NodeMetricsPayload}

/-! ## The text of a payload -/

theorem isElement_object {members : List (List Char)} (h : ∀ e ∈ members, IsElement e) :
    IsElement (object members) := .inl (after_object h)

theorem isElement_sampleJson (hj : j.Documented) (sample : MetricSample) :
    IsElement (j.sampleJson sample) := by
  have hlabels : IsElement (labelsJson sample.labels) := by
    refine isElement_object fun e he => ?_
    obtain ⟨label, -, rfl⟩ := List.mem_map.1 he
    exact isElement_member _ (isElement_quoted _)
  refine isElement_object fun e he => ?_
  simp only [List.mem_cons, List.not_mem_nil, or_false] at he
  obtain rfl | rfl | rfl | rfl := he
  · exact isElement_member _ (isElement_quoted _)
  · exact isElement_member _ (isElement_of_plain (hj.floatText _))
  · exact isElement_member _ (isElement_quoted _)
  · exact isElement_member _ hlabels

theorem written_modelDumpJson (hj : j.Documented) (p : NodeMetricsPayload) :
    Written (j.modelDumpJson p) .outside := by
  have hsamples : IsElement (array (p.samples.map j.sampleJson)) := by
    refine .inl (after_array fun e he => ?_)
    obtain ⟨sample, -, rfl⟩ := List.mem_map.1 he
    exact isElement_sampleJson hj sample
  have herrors : IsElement (array (p.collectionErrors.map fun e => quoted e.toList)) := by
    refine .inl (after_array fun e he => ?_)
    obtain ⟨error, -, rfl⟩ := List.mem_map.1 he
    exact isElement_quoted _
  refine after_object fun e he => ?_
  simp only [List.mem_cons, List.not_mem_nil, or_false] at he
  obtain rfl | rfl | rfl | rfl := he
  · exact isElement_member _ (isElement_quoted _)
  · exact isElement_member _ (isElement_quoted _)
  · exact isElement_member _ hsamples
  · exact isElement_member _ herrors

theorem any_isLineBreak_sampleJson (hj : j.Documented) (sample : MetricSample) :
    (j.sampleJson sample).any isLineBreak = (sample.unit.toList.any isSeparator ||
      sample.labels.any fun label =>
        label.1.toList.any isSeparator || label.2.toList.any isSeparator) := by
  have hfloat : (j.floatText sample.value).any isLineBreak = false :=
    List.any_eq_false.2 fun c hc => by rw [(hj.floatText _ c hc).2.2]; exact Bool.false_ne_true
  have htype : sample.metricType.value.toList.any isSeparator = false := by
    cases sample.metricType <;> decide
  have hkeys : ("metric_type".toList.any isSeparator = false ∧
      "value".toList.any isSeparator = false) ∧ "unit".toList.any isSeparator = false ∧
        "labels".toList.any isSeparator = false := by decide
  unfold sampleJson labelsJson
  simp only [any_isLineBreak_object, List.any_cons, List.any_nil, any_isLineBreak_member,
    any_isLineBreak_quoted, hfloat, htype, hkeys, List.any_map, Function.comp_def, Bool.false_or,
    Bool.or_false]

/-- The text of a payload has a line boundary exactly if one of its strings has a separator. -/
theorem any_isLineBreak_modelDumpJson (hj : j.Documented) (p : NodeMetricsPayload) :
    (j.modelDumpJson p).any isLineBreak = p.hasSeparator := by
  have hkeys : ("node_id".toList.any isSeparator = false ∧
      "collected_at".toList.any isSeparator = false) ∧ "samples".toList.any isSeparator = false ∧
        "collection_errors".toList.any isSeparator = false := by decide
  unfold modelDumpJson NodeMetricsPayload.hasSeparator NodeMetricsPayload.texts
  simp only [any_isLineBreak_object, any_isLineBreak_array, List.any_cons, List.any_nil,
    any_isLineBreak_member, any_isLineBreak_quoted, any_isLineBreak_sampleJson hj, hkeys,
    hj.datetimeText, List.any_map, Function.comp_def, Bool.false_or, Bool.or_false, List.any_append,
    List.any_flatMap, List.cons_append]

/-! ## The payloads in a text -/

theorem payloadsIn_newline (before behind : List Char) :
    j.payloadsIn (before ++ '\n' :: behind) = j.payloadsIn before ++ j.payloadsIn behind := by
  unfold payloadsIn
  rw [records_newline, List.filterMap_append]

/-- A payload is read back from its own text unless it has a separator, and nothing else is. -/
theorem payloadsIn_modelDumpJson (hj : j.Documented) (p : NodeMetricsPayload) :
    j.payloadsIn (j.modelDumpJson p) =
      if p.hasSeparator then [] else (j.validateJson (j.modelDumpJson p)).toList := by
  have hwritten := written_modelDumpJson hj p
  have hreturn : ∀ c ∈ j.modelDumpJson p, c ≠ '\r' :=
    Mode.ne_return_of_mem (m := .outside) (by rw [hwritten]; decide)
  unfold payloadsIn records
  rw [universalNewlines_eq_self hreturn]
  split_ifs with hseparator
  · rw [← any_isLineBreak_modelDumpJson hj] at hseparator
    refine List.filterMap_eq_nil_iff.2 fun line hline => ?_
    by_contra hsome
    obtain ⟨q, hq⟩ := Option.ne_none_iff_exists'.1 hsome
    refine not_readable ?_ hwritten hseparator line (List.mem_filter.1 hline).1
      (hj.validateJson line q hq)
    intro c s hname
    have hhead : "node_id".toList.head? = some 'n' := by decide
    rw [hname] at hhead
    obtain rfl := Option.some.inj hhead
    decide
  · rw [← any_isLineBreak_modelDumpJson hj, Bool.not_eq_true] at hseparator
    obtain ⟨rest, hrest⟩ : ∃ rest, j.modelDumpJson p = '\x7b' :: rest := ⟨_, rfl⟩
    have hblank : isBlank (j.modelDumpJson p) = false := by
      rw [hrest]
      rfl
    unfold splitlines
    rw [splitlinesFrom_eq hseparator, List.nil_append, if_neg (by rw [hrest]; exact nofun),
      List.filter_cons, hblank]
    exact List.filterMap_cons ..

/-- The text of the file is one line for each payload, with a newline behind it. -/
theorem fileText_cons (p : NodeMetricsPayload) (entries : List NodeMetricsPayload) :
    j.fileText (p :: entries) = j.modelDumpJson p ++ '\n' :: j.fileText entries := by
  unfold fileText
  cases entries with
  | nil => simp
  | cons q entries => simp

theorem payloadsIn_fileText (entries : List NodeMetricsPayload) :
    j.payloadsIn (j.fileText entries) = entries.flatMap fun p => j.payloadsIn (j.modelDumpJson p) := by
  induction entries with
  | nil => rfl
  | cons p entries ih => rw [fileText_cons, payloadsIn_newline, ih, List.flatMap_cons]

/-- The payload is read back as it was. -/
def Restorable (j : PydanticJson) (p : NodeMetricsPayload) : Prop :=
  p.hasSeparator = false ∧ j.validateJson (j.modelDumpJson p) = some p

theorem Restorable.payloadsIn (hj : j.Documented) (hp : j.Restorable p) :
    j.payloadsIn (j.modelDumpJson p) = [p] := by
  rw [payloadsIn_modelDumpJson hj, hp.1, hp.2]
  rfl

end PydanticJson

/-! ## The file -/

namespace FileBuffer

open PydanticJson

variable {j : PydanticJson} {p : NodeMetricsPayload} {entries : List NodeMetricsPayload}
  {file : BufferFile} {maxEntries : ℤ}

theorem decodeFile_encode (text : List Char) :
    decodeFile j (encode text) = .ok (j.payloadsIn text) := by
  unfold decodeFile
  rw [decode_encode]

theorem run_readFile : (readFile j).run FileStep.handle file = (decodeFile j file.main, file) := by
  unfold readFile
  show (Prog.lift (decodeFile j file.main)).run FileStep.handle file = _
  cases decodeFile j file.main with
  | ok entries => rfl
  | error e => rfl

theorem run_writeFile : (writeFile j entries).run FileStep.handle file =
    (.ok (), ⟨encode (j.fileText entries), none⟩) := rfl

/-- What is read after a rewrite. -/
theorem decodeFile_fileText : decodeFile j (encode (j.fileText entries)) =
    .ok (entries.flatMap fun p => j.payloadsIn (j.modelDumpJson p)) := by
  rw [decodeFile_encode, payloadsIn_fileText]

/-- The payloads with a separator are gone. -/
theorem decodeFile_valid (hj : j.Documented)
    (hvalid : ∀ p ∈ entries, j.validateJson (j.modelDumpJson p) = some p) :
    decodeFile j (encode (j.fileText entries)) =
      .ok (entries.filter fun p => !p.hasSeparator) := by
  rw [decodeFile_fileText]
  congr 1
  induction entries with
  | nil => rfl
  | cons p entries ih =>
    rw [List.flatMap_cons, payloadsIn_modelDumpJson hj, hvalid p List.mem_cons_self,
      ih fun q hq => hvalid q (List.mem_cons_of_mem p hq), List.filter_cons]
    cases p.hasSeparator with
    | false => rfl
    | true => rfl

theorem decodeFile_restorable (hj : j.Documented) (hentries : ∀ p ∈ entries, j.Restorable p) :
    decodeFile j (encode (j.fileText entries)) = .ok entries := by
  rw [decodeFile_valid hj fun p hp => (hentries p hp).2, List.filter_eq_self.2 fun p hp => ?_]
  rw [(hentries p hp).1]
  rfl

theorem run_enqueue_of_ok (hfile : decodeFile j file.main = .ok entries) (p : NodeMetricsPayload) :
    ((onFile j maxEntries).enqueue p).run FileStep.handle file =
      (.ok (), ⟨encode (j.fileText (evict maxEntries (entries ++ [p]))), none⟩) := by
  show (readFile j >>= fun entries => writeFile j _).run FileStep.handle file = _
  rw [run_bind, run_readFile, hfile]
  rfl

theorem run_drain_of_ok (hfile : decodeFile j file.main = .ok entries) (maxItems : ℕ) :
    ((onFile j maxEntries).drain maxItems).run FileStep.handle file =
      (.ok (entries.take maxItems), ⟨encode (j.fileText (entries.drop maxItems)), none⟩) := by
  show (readFile j >>= fun entries => _).run FileStep.handle file = _
  rw [run_bind, run_readFile, hfile]
  rfl

/-- Enqueueing does to the payloads in the file what it does to a list of payloads. -/
theorem run_enqueue (maxEntries : ℤ) (hj : j.Documented) (hfile : decodeFile j file.main = .ok entries)
    (hentries : ∀ q ∈ entries ++ [p], j.Restorable q) :
    ∃ file', ((onFile j maxEntries).enqueue p).run FileStep.handle file = (.ok (), file') ∧
      decodeFile j file'.main = .ok (evict maxEntries (entries ++ [p])) := by
  refine ⟨_, run_enqueue_of_ok hfile p, decodeFile_restorable hj fun q hq => hentries q ?_⟩
  unfold evict at hq
  split_ifs at hq
  · exact List.mem_of_mem_drop hq
  · exact hq

/-- So does draining. -/
theorem run_drain (maxEntries : ℤ) (hj : j.Documented) (hfile : decodeFile j file.main = .ok entries)
    (hentries : ∀ q ∈ entries, j.Restorable q) (maxItems : ℕ) :
    ∃ file', ((onFile j maxEntries).drain maxItems).run FileStep.handle file =
        (.ok (entries.take maxItems), file') ∧
      decodeFile j file'.main = .ok (entries.drop maxItems) :=
  ⟨_, run_drain_of_ok hfile maxItems,
    decodeFile_restorable hj fun q hq => hentries q (List.mem_of_mem_drop hq)⟩

theorem evict_of_le (h : entries.length ≤ maxEntries) : evict maxEntries entries = entries :=
  if_neg (not_lt.2 h)

/-- Enqueueing a list, where nothing is evicted. -/
theorem run_enqueue_all (hj : j.Documented) {before : List NodeMetricsPayload}
    (hfile : decodeFile j file.main = .ok before) (hentries : ∀ q ∈ before ++ entries, j.Restorable q)
    (hlength : (before ++ entries).length ≤ maxEntries) :
    ∃ file', (entries.forM (onFile j maxEntries).enqueue).run FileStep.handle file = (.ok (), file') ∧
      decodeFile j file'.main = .ok (before ++ entries) := by
  induction entries generalizing before file with
  | nil =>
    refine ⟨file, rfl, ?_⟩
    rw [hfile, List.append_nil]
  | cons p entries ih =>
    have happend : before ++ p :: entries = (before ++ [p]) ++ entries := by simp
    rw [happend] at hentries hlength ⊢
    obtain ⟨file₁, hrun₁, hfile₁⟩ := run_enqueue maxEntries hj hfile
      fun q hq => hentries q (List.mem_append_left _ hq)
    rw [evict_of_le (by rw [List.length_append] at hlength; omega)] at hfile₁
    obtain ⟨file₂, hrun₂, hfile₂⟩ := ih hfile₁ hentries hlength
    refine ⟨file₂, ?_, hfile₂⟩
    show ((onFile j maxEntries).enqueue p >>= fun _ =>
      entries.forM (onFile j maxEntries).enqueue).run FileStep.handle file = _
    rw [run_bind, hrun₁]
    exact hrun₂

theorem run_write_read (entries : List NodeMetricsPayload) (file : BufferFile) :
    ((writeFile j entries >>= fun _ => readFile j).run FileStep.handle file).1 =
      decodeFile j (encode (j.fileText entries)) := by
  rw [run_bind, run_writeFile]
  dsimp only
  rw [run_readFile]

/-- What is written is read back, and what is enqueued into an empty file is drained if there is room
for it. -/
structure RoundTrips (j : PydanticJson) (entries : List NodeMetricsPayload) : Prop where
  read : ∀ file, ((writeFile j entries >>= fun _ => readFile j).run FileStep.handle file).1 =
    .ok entries
  drained : ∀ maxEntries : ℤ, entries.length ≤ maxEntries →
    ((entries.forM (onFile j maxEntries).enqueue >>= fun _ =>
      (onFile j maxEntries).drain entries.length).run FileStep.handle ⟨[], none⟩).1 = .ok entries

/-- Payloads are read back exactly if none of them has a separator. -/
theorem roundTrip_iff (hj : j.Documented)
    (hvalid : ∀ p ∈ entries, j.validateJson (j.modelDumpJson p) = some p) :
    RoundTrips j entries ↔ ∀ p ∈ entries, p.hasSeparator = false := by
  constructor
  · intro hback p hp
    have hfilter := hback.read ⟨[], none⟩
    rw [run_write_read, decodeFile_valid hj hvalid, Except.ok.injEq, List.filter_eq_self] at hfilter
    simpa using hfilter p hp
  · intro hclean
    have hentries : ∀ p ∈ entries, j.Restorable p := fun p hp => ⟨hclean p hp, hvalid p hp⟩
    constructor
    · intro file
      rw [run_write_read]
      exact decodeFile_restorable hj hentries
    · intro maxEntries hlength
      have hempty : decodeFile j (⟨[], none⟩ : BufferFile).main = .ok [] := decodeFile_encode []
      obtain ⟨file₁, hrun₁, hfile₁⟩ := run_enqueue_all hj hempty hentries hlength
      obtain ⟨file₂, hrun₂, -⟩ := run_drain maxEntries hj hfile₁ hentries entries.length
      rw [List.nil_append] at hrun₂
      rw [run_bind, hrun₁]
      dsimp only
      rw [hrun₂, List.take_length]

end FileBuffer

namespace Scenario

open FileBuffer

/-- A payload of 30 July 2021. -/
def julyPayload (nodeId : String) : NodeMetricsPayload where
  nodeId := nodeId
  collectedAt := .utc (738000 * Timedelta.day) (by decide) (by decide)
  samples := [⟨.cpuUsagePercent, 95, "percent", [("core", "0")]⟩]
  collectionErrors := []

/-- The texts of its number and of its datetime. -/
def julyTexts : PydanticJson where
  floatText _ := "95.0".toList
  datetimeText _ := "2021-07-30T00:00:00Z".toList
  validateJson _ := none

/-- pydantic, as far as this payload needs it. -/
def pydantic (nodeId : String) : PydanticJson :=
  { julyTexts with
    validateJson := fun text =>
      if text = julyTexts.modelDumpJson (julyPayload nodeId) then some (julyPayload nodeId)
      else none }

theorem validateJson_julyPayload (nodeId : String) :
    (pydantic nodeId).validateJson ((pydantic nodeId).modelDumpJson (julyPayload nodeId)) =
      some (julyPayload nodeId) := if_pos rfl

theorem eq_julyPayload {nodeId : String} {text : List Char} {p : NodeMetricsPayload}
    (h : (pydantic nodeId).validateJson text = some p) :
    text = julyTexts.modelDumpJson (julyPayload nodeId) ∧ p = julyPayload nodeId := by
  by_cases htext : text = julyTexts.modelDumpJson (julyPayload nodeId)
  · rw [show (pydantic nodeId).validateJson text = some (julyPayload nodeId) from if_pos htext] at h
    exact ⟨htext, (Option.some.inj h).symm⟩
  · rw [show (pydantic nodeId).validateJson text = none from if_neg htext] at h
    cases h

theorem documented_pydantic {nodeId : String}
    (h : Readable "node_id".toList (julyTexts.modelDumpJson (julyPayload nodeId))) :
    (pydantic nodeId).Documented where
  floatText _ c hc := by
    have hplain : "95.0".toList.all fun c => c ≠ '"' ∧ c ≠ '\\' ∧ isLineBreak c = false := by
      decide
    simpa using List.all_eq_true.1 hplain c hc
  datetimeText _ := by
    show "2021-07-30T00:00:00Z".toList.any isSeparator = false
    decide
  validateJson text p hp := by
    rw [(eq_julyPayload hp).1]
    exact h

theorem documented_plain : (pydantic "node-1").Documented :=
  documented_pydantic ⟨by decide +kernel, "node_id".toList, by decide +kernel,
    spells_self (by decide)⟩

theorem roundTrip_iff_plain :
    RoundTrips (pydantic "node-1") [julyPayload "node-1"] ↔
      ∀ p ∈ [julyPayload "node-1"], p.hasSeparator = false :=
  roundTrip_iff documented_plain fun p hp => by
    obtain rfl := List.mem_singleton.1 hp
    exact validateJson_julyPayload "node-1"

/-- A node whose name has a line separator in it. -/
theorem not_roundTrip : ¬ ∀ (j : PydanticJson) (entries : List NodeMetricsPayload), j.Documented →
    (∀ p ∈ entries, j.validateJson (j.modelDumpJson p) = some p) → RoundTrips j entries := by
  intro h
  have hdocumented : (pydantic "node\u2028one").Documented :=
    documented_pydantic ⟨by decide +kernel, "node_id".toList, by decide +kernel,
      spells_self (by decide)⟩
  have hvalid : ∀ p ∈ [julyPayload "node\u2028one"], (pydantic "node\u2028one").validateJson
      ((pydantic "node\u2028one").modelDumpJson p) = some p := by
    intro p hp
    obtain rfl := List.mem_singleton.1 hp
    exact validateJson_julyPayload _
  have hread := (h _ _ hdocumented hvalid).read ⟨[], none⟩
  have hseparator : (julyPayload "node\u2028one").hasSeparator = true := by decide +kernel
  rw [run_write_read, decodeFile_valid hdocumented hvalid, List.filter_cons, hseparator] at hread
  cases hread

end Scenario

end ClusterPulse
