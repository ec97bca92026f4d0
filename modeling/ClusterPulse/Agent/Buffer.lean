import ClusterPulse.Agent.Scheduler
import ClusterPulse.Lib.Interpretation
import ClusterPulse.Lib.Json
import ClusterPulse.Lib.PurePath

/-!
# The buffer file

`FileBuffer` keeps its payloads in a file of JSON lines and rewrites it through a temporary file.  The
steps on the file are calls, which may fail with an `OSError` that the code catches; at the path of the
file they become calls on the filesystem.  What pydantic makes of a number, a datetime and a line is
taken by shape; the rest of the text of a payload is written out here.
-/

namespace ClusterPulse

/-! ## Payloads as JSON -/

/-- The parts of pydantic's JSON: the texts of a `float` and of a `datetime`, and
`NodeMetricsPayload.model_validate_json`, which returns nothing where it raises. -/
structure PydanticJson where
  floatText : Double → List Char
  datetimeText : Datetime → List Char
  validateJson : List Char → Option NodeMetricsPayload

namespace PydanticJson

open Json

variable (j : PydanticJson)

def labelsJson (labels : StrDict) : List Char :=
  object (labels.map fun label => member label.1.toList (quoted label.2.toList))

def sampleJson (sample : MetricSample) : List Char :=
  object [member "metric_type".toList (quoted sample.metricType.value.toList),
    member "value".toList (j.floatText sample.value),
    member "unit".toList (quoted sample.unit.toList),
    member "labels".toList (labelsJson sample.labels)]

/-- `model_dump_json`. -/
def modelDumpJson (p : NodeMetricsPayload) : List Char :=
  object [member "node_id".toList (quoted p.nodeId.toList),
    member "collected_at".toList (quoted (j.datetimeText p.collectedAt)),
    member "samples".toList (array (p.samples.map j.sampleJson)),
    member "collection_errors".toList (array (p.collectionErrors.map fun e => quoted e.toList))]

/-- The payloads in the text of a buffer file: blank lines and lines that do not validate are
skipped. -/
def payloadsIn (text : List Char) : List NodeMetricsPayload :=
  (TextFile.records text).filterMap j.validateJson

/-- The text that `_write_all` writes. -/
def fileText (entries : List NodeMetricsPayload) : List Char :=
  List.intercalate ['\n'] (entries.map j.modelDumpJson) ++ if entries = [] then [] else ['\n']

end PydanticJson

/-! ## Steps on the file -/

structure OSError where
  strerror : String
deriving DecidableEq, Repr

/-- The steps of `_read_all` and `_write_all`: read the file, write the temporary file, rename it. -/
inductive FileStep where
  | readText
  | writeText (content : List UInt8)
  | replace
deriving DecidableEq

/-- The outcome of a step, for the `except OSError` around it. -/
@[reducible] def FileStep.Res : FileStep → Type
  | readText => Except OSError (List UInt8)
  | writeText _ => Except OSError Unit
  | replace => Except OSError Unit

abbrev FileStep.perform (step : FileStep) : Prog FileStep FileStep.Res AgentError step.Res :=
  Prog.perform step

/-- The bytes of the buffer file, and of the temporary file if there is one. -/
structure BufferFile where
  main : List UInt8
  tmp : Option (List UInt8) := none
deriving DecidableEq

/-- A filesystem without faults. -/
def FileStep.handle : Handler FileStep FileStep.Res AgentError BufferFile
  | .readText, file => (.ok (.ok file.main), file)
  | .writeText content, file => (.ok (.ok ()), { file with tmp := some content })
  | .replace, file =>
    match file.tmp with
    | some content => (.ok (.ok ()), ⟨content, none⟩)
    | none => (.ok (.error ⟨"No such file or directory"⟩), file)

namespace FileBuffer

/-- Bytes that are not UTF-8 raise a `ValueError` that nothing catches. -/
def unicodeDecodeError : AgentError := .exception "'utf-8' codec can't decode bytes"

/-- The payloads in the bytes of a buffer file. -/
def decodeFile (j : PydanticJson) (content : List UInt8) :
    Except AgentError (List NodeMetricsPayload) :=
  match TextFile.decode content with
  | some text => .ok (j.payloadsIn text)
  | none => .error unicodeDecodeError

/-- `_read_all`: a file that cannot be read counts as empty. -/
def readFile (j : PydanticJson) :
    Prog FileStep FileStep.Res AgentError (List NodeMetricsPayload) := do
  match (← FileStep.readText.perform : Except OSError (List UInt8)) with
  | .error _ => return []
  | .ok content => Prog.lift (decodeFile j content)

/-- `_write_all`: the first step that fails ends it. -/
def writeFile (j : PydanticJson) (entries : List NodeMetricsPayload) :
    Prog FileStep FileStep.Res AgentError Unit := do
  match (← (FileStep.writeText (TextFile.encode (j.fileText entries))).perform :
      Except OSError Unit) with
  | .error _ => return ()
  | .ok _ =>
    let _ ← FileStep.replace.perform
    return ()

/-- The buffer on such a file. -/
def onFile (j : PydanticJson) (maxEntries : ℤ) : FileBuffer FileStep FileStep.Res where
  readAll := readFile j
  writeAll := writeFile j
  maxEntries := maxEntries

variable {Op : Type} {Res : Op → Type}

/-- `__len__`. -/
def len (b : FileBuffer Op Res) : Prog Op Res AgentError ℕ := do
  let entries ← b.readAll
  return entries.length

end FileBuffer

/-! ## The path of the file -/

/-- Where nothing catches it. -/
def OSError.raised (e : OSError) : AgentError := .exception e.strerror

inductive MkdirError where
  | fileNotFound
  | osError (e : OSError)
deriving DecidableEq, Repr

/-- What `FileBuffer` asks of the filesystem. -/
inductive PathCall where
  | mkdir (path : PurePath)
  | isDir (path : PurePath)
  | exists? (path : PurePath)
  | touch (path : PurePath)
  | readText (path : PurePath)
  | writeText (path : PurePath) (content : List UInt8)
  | replace (source target : PurePath)
deriving DecidableEq

@[reducible] def PathCall.Res : PathCall → Type
  | mkdir _ => Except MkdirError Unit
  | isDir _ | exists? _ => Except OSError Bool
  | readText _ => Except OSError (List UInt8)
  | touch _ | writeText .. | replace .. => Except OSError Unit

namespace FileBuffer

variable {Op : Type} {Res : Op → Type} {α : Type}
  (ask : (c : PathCall) → Prog Op Res AgentError c.Res)

/-- `path.mkdir(exist_ok=True)`; `missing` is for a path without a parent. -/
def mkdir (missing : Prog Op Res AgentError Unit) (path : PurePath) :
    Prog Op Res AgentError Unit := do
  match (← ask (.mkdir path) : Except MkdirError Unit) with
  | .ok _ => return ()
  | .error .fileNotFound => missing
  | .error (.osError e) =>
    match (← ask (.isDir path) : Except OSError Bool) with
    | .ok true => return ()
    | .ok false => .throw e.raised
    | .error e' => .throw e'.raised

def fileNotFoundError : AgentError := .exception "No such file or directory"

/-- `path.mkdir(parents=True, exist_ok=True)`, for a path with so many parts. -/
def mkdirParents : ℕ → PurePath → Prog Op Res AgentError Unit
  | 0, path => mkdir ask (.throw fileNotFoundError) path
  | parts + 1, path =>
    mkdir ask (do mkdirParents parts path.parent; mkdir ask (.throw fileNotFoundError) path) path

/-- `__init__`. -/
def init (path : PurePath) : Prog Op Res AgentError Unit := do
  mkdirParents ask path.parent.parts.length path.parent
  match (← ask (.exists? path) : Except OSError Bool) with
  | .ok true => return ()
  | .ok false =>
    let touched : Except OSError Unit ← ask (.touch path)
    Prog.lift (touched.mapError OSError.raised)
  | .error e => .throw e.raised

def tmpSuffix : List Char := ['.', 't', 'm', 'p']

/-- `path.with_suffix(path.suffix + ".tmp")`. -/
@[irreducible] def tmpPath (path : PurePath) : Except AgentError PurePath :=
  match path.withSuffix (path.suffix ++ tmpSuffix) with
  | some tmp => .ok tmp
  | none => .error (.exception
    ("PosixPath('" ++ (if path.absolute then "/" else ".") ++ "') has an empty name"))

/-- A step on the file at `path`.  A path without a name raises outside the `try`. -/
def stepAt (path : PurePath) : (step : FileStep) → Prog Op Res AgentError step.Res
  | .readText => ask (.readText path)
  | .writeText content => do
    let tmp ← Prog.lift (tmpPath path)
    ask (.writeText tmp content)
  | .replace => do
    let tmp ← Prog.lift (tmpPath path)
    ask (.replace tmp path)

/-- The steps of `p` on the file at `path`. -/
def atPath (path : PurePath) (p : Prog FileStep FileStep.Res AgentError α) :
    Prog Op Res AgentError α :=
  p.interpret (fun step => (stepAt ask path step).result) >>= Prog.lift

end FileBuffer

end ClusterPulse
