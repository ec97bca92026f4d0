import ClusterPulse.Proof.BufferText

/-!
# Corrupt buffer files

Whatever stands in the lines of a buffer file, the intact ones among them are read, in order, as long
as the whole file is UTF-8: a single byte that is not makes every call raise.  And a line that is intact
is lost if a text in it has a separator (`skipsCorruption_iff`).
-/

namespace ClusterPulse

open Json Prog TextFile

namespace FileBuffer

open PydanticJson

variable {j : PydanticJson} {maxEntries : ℤ} {file : BufferFile} {p : NodeMetricsPayload}

/-- The line is the encoding of a payload that validates. -/
def Intact (j : PydanticJson) (line : List UInt8) (p : NodeMetricsPayload) : Prop :=
  line = encode (j.modelDumpJson p) ∧ j.validateJson (j.modelDumpJson p) = some p

/-- What is read from a line, if it were the whole file. -/
def payloadsOf (j : PydanticJson) (line : List UInt8) : List NodeMetricsPayload :=
  (decodeFile j line).toOption.getD []

/-- The calls of the buffer return, and what they see is what the lines of the file contain, one after
another; an intact one contains its payload. -/
structure SkipsCorruption (j : PydanticJson) (maxEntries : ℤ) (file : BufferFile) : Prop where
  len_returns : ∃ n, ((len (onFile j maxEntries)).run FileStep.handle file).1 = .ok n
  drain_returns : ∀ maxItems, ∃ entries,
    (((onFile j maxEntries).drain maxItems).run FileStep.handle file).1 = .ok entries
  enqueue_returns : ∀ p, (((onFile j maxEntries).enqueue p).run FileStep.handle file).1 = .ok ()
  reads : ((readFile j).run FileStep.handle file).1 =
    .ok ((file.main.splitOn 10).flatMap (payloadsOf j))
  intact : ∀ line ∈ file.main.splitOn 10, ∀ p, Intact j line p → payloadsOf j line = [p]

theorem payloadsOf_encode (text : List Char) : payloadsOf j (encode text) = j.payloadsIn text := by
  unfold payloadsOf
  rw [decodeFile_encode]
  rfl

/-- An intact line is read unless it has a separator. -/
theorem payloadsOf_intact (hj : j.Documented) {line : List UInt8} (h : Intact j line p) :
    payloadsOf j line = [p] ↔ p.hasSeparator = false := by
  rw [h.1, payloadsOf_encode, payloadsIn_modelDumpJson hj, h.2]
  cases p.hasSeparator with
  | false => simp
  | true => simp

/-- A file of UTF-8 is read line by line. -/
theorem decodeFile_eq_flatMap {content : List UInt8} (h : (decode content).isSome) :
    decodeFile j content = .ok ((content.splitOn 10).flatMap (payloadsOf j)) := by
  obtain ⟨text, htext⟩ := Option.isSome_iff_exists.1 h
  obtain rfl := encode_of_decode htext
  obtain ⟨lines, hlines, hrecords⟩ := exists_lines text
  rw [decodeFile_encode, ← hlines, List.flatMap_map]
  simp only [payloadsOf_encode]
  unfold payloadsIn
  rw [hrecords, List.filterMap_flatMap]

theorem decodeFile_of_none {content : List UInt8} (h : (decode content).isSome = false) :
    decodeFile j content = .error unicodeDecodeError := by
  rw [Option.isSome_eq_false_iff, Option.isNone_iff_eq_none] at h
  unfold decodeFile
  rw [h]

theorem run_len {entries : List NodeMetricsPayload} (h : decodeFile j file.main = .ok entries) :
    (len (onFile j maxEntries)).run FileStep.handle file = (.ok entries.length, file) := by
  show (readFile j >>= fun entries => Prog.pure entries.length).run FileStep.handle file = _
  rw [run_bind, run_readFile, h]
  rfl

/-- Corruption is skipped exactly if the file is UTF-8 and no intact line in it has a separator. -/
theorem skipsCorruption_iff (hj : j.Documented) (file : BufferFile) :
    SkipsCorruption j maxEntries file ↔ (decode file.main).isSome ∧
      ∀ line ∈ file.main.splitOn 10, ∀ p, Intact j line p → p.hasSeparator = false := by
  constructor
  · intro h
    refine ⟨?_, fun line hline p hintact => ?_⟩
    · by_contra hnone
      have hreads := h.reads
      rw [run_readFile, decodeFile_of_none (Bool.eq_false_of_not_eq_true hnone)] at hreads
      cases hreads
    · exact (payloadsOf_intact hj hintact).1 (h.intact line hline p hintact)
  · rintro ⟨hdecode, hclean⟩
    have hfile := decodeFile_eq_flatMap (j := j) hdecode
    refine ⟨⟨_, congrArg Prod.fst (run_len hfile)⟩,
      fun maxItems => ⟨_, congrArg Prod.fst (run_drain_of_ok hfile maxItems)⟩,
      fun p => congrArg Prod.fst (run_enqueue_of_ok hfile p), ?_, fun line hline p hintact => ?_⟩
    · rw [run_readFile, hfile]
    · exact (payloadsOf_intact hj hintact).2 (hclean line hline p hintact)

end FileBuffer

namespace Scenario

open FileBuffer

theorem skipsCorruption_iff_plain :
    SkipsCorruption (pydantic "node-1") 10
        ⟨encode ((pydantic "node-1").fileText [julyPayload "node-1"]), none⟩ ↔
      (decode (encode ((pydantic "node-1").fileText [julyPayload "node-1"]))).isSome ∧
      ∀ line ∈ (encode ((pydantic "node-1").fileText [julyPayload "node-1"])).splitOn 10, ∀ p,
        Intact (pydantic "node-1") line p → p.hasSeparator = false :=
  skipsCorruption_iff documented_plain _

/-- One byte that is not UTF-8, and no call returns. -/
theorem not_skipsCorruption : ¬ ∀ (j : PydanticJson) (maxEntries : ℤ) (file : BufferFile),
    j.Documented → SkipsCorruption j maxEntries file := by
  intro h
  have hnone : decode [0xff] = none := by decide +kernel
  obtain ⟨n, hn⟩ := (h (pydantic "node-1") 10 ⟨[0xff], none⟩ documented_plain).len_returns
  have hraises : ((len (onFile (pydantic "node-1") 10)).run FileStep.handle ⟨[0xff], none⟩).1 =
      .error unicodeDecodeError := by
    show ((readFile _ >>= fun entries => Prog.pure entries.length).run FileStep.handle _).1 = _
    rw [run_bind, run_readFile, decodeFile_of_none (by rw [hnone]; rfl)]
  rw [hraises] at hn
  cases hn

end Scenario

end ClusterPulse
