import ClusterPulse.Lib.FileCalls
import ClusterPulse.Shared.Contracts
import Mathlib.Data.Finset.Defs

/-!
# Executing remediation actions

`PlaybookExecutor.execute` carries out one dispatched action or refuses it.  The only action that
touches the node is `CLEAR_DIRECTORY`, which removes the entries of a directory one after another;
its path has to be in the Agent's own allowlist, letter by letter.
-/

namespace ClusterPulse

/-! ## Exceptions -/

/-- The exceptions raised while an action is carried out. -/
inductive ExecutorError where
  | remediationSafetyError (message : String)
  | filesystem (error : FsError)
deriving DecidableEq, Repr

namespace ExecutorError

/-- `str(exc)`. -/
def message : ExecutorError → String
  | remediationSafetyError message => message
  | filesystem (.osError strerror) => strerror
  | filesystem (.valueError message) => message

/-- `except (RemediationSafetyError, OSError)`. -/
def isCaught : ExecutorError → Bool
  | remediationSafetyError _ => true
  | filesystem (.osError _) => true
  | filesystem (.valueError _) => false

end ExecutorError

/-! ## Calls -/

/-- What runs on the filesystem. -/
abbrev FsProg (α : Type) : Type := Prog FsCall FsCall.Res ExecutorError α

namespace FsProg

def listdir (path : List Char) : FsProg (List (List Char)) := Prog.perform (FsCall.listdir path)

def isdir (path : List Char) : FsProg Bool := Prog.perform (FsCall.isdir path)

def islink (path : List Char) : FsProg Bool := Prog.perform (FsCall.islink path)

def rmtree (path : List Char) : FsProg Unit := Prog.perform (FsCall.rmtree path)

def remove (path : List Char) : FsProg Unit := Prog.perform (FsCall.remove path)

/-- The calls answered by a filesystem of its own. -/
def handler (env : FsEnvironment) : Handler FsCall FsCall.Res ExecutorError FsWorld :=
  env.handle .filesystem

end FsProg

/-! ## Actions -/

/-- `repr` of a text. -/
abbrev TextRepr : Type := String → String

/-- One pass of the loop of `_clear_directory_contents`. -/
def removeEntry (path entry : List Char) : FsProg Unit := do
  let entryPath := FileTree.join path entry
  if ← FsProg.isdir entryPath then
    -- only asked about what `isdir` took for a directory
    if ← FsProg.islink entryPath then FsProg.remove entryPath
    else FsProg.rmtree entryPath
  else FsProg.remove entryPath

def removeEntries (path : List Char) : List (List Char) → FsProg Unit
  | [] => return ()
  | entry :: entries => do
    removeEntry path entry
    removeEntries path entries

def clearDirectoryContents (path : List Char) : FsProg ℕ := do
  let entries ← FsProg.listdir path
  removeEntries path entries
  return entries.length

/-- Delete every entry directly inside `parameters["path"]`. -/
def executeClearDirectory (repr : TextRepr) (parameters : StrDict)
    (allowedDirectories : Finset String) : FsProg ActionResult := do
  let path := (parameters.lookup "path").getD ""
  if path = "" ∨ path ∉ allowedDirectories then
    Prog.throw (.remediationSafetyError ("path " ++ repr path ++
      " is not in this Agent's remediation_allowed_directories allowlist"))
  else do
    let removed ← clearDirectoryContents path.toList
    return ⟨.executed, some ("removed " ++ toString removed ++ " entries from " ++ path)⟩

def executeNoop : FsProg ActionResult := return ⟨.executed, some "noop"⟩

/-! ## The executor -/

structure PlaybookExecutor where
  allowedDirectories : Finset String

namespace PlaybookExecutor

def dispatch (repr : TextRepr) (executor : PlaybookExecutor) (action : PendingAction) :
    FsProg ActionResult :=
  match action.actionType with
  | .noop => executeNoop
  | .clearDirectory =>
    executeClearDirectory repr action.parameters executor.allowedDirectories
  | .restartService => Prog.throw (.remediationSafetyError ("action_type " ++
      repr action.actionType.value ++ " is not supported by this Agent's executor"))

/-- Run `action`; a refusal or an `OSError` becomes a `FAILED` result. -/
def execute (repr : TextRepr) (executor : PlaybookExecutor) (action : PendingAction) :
    FsProg ActionResult :=
  (executor.dispatch repr action).tryCatch fun e =>
    if e.isCaught then .pure ⟨.failed, some e.message⟩ else .throw e

end PlaybookExecutor

end ClusterPulse
