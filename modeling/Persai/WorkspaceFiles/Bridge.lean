import Persai.FileTree
import Persai.WorkspaceFiles.Names
import Persai.WorkspaceFiles.ObjectStorage

/-!
# The bridge to the files of a workspace

`workspaceFileWrite`, `workspaceFileCopy` and `workspaceFileDelete` of
`workspace-file-bridge.service.ts`: their shell commands on the volume that is mounted as the
workspace of the pod, and their calls on the object storage, which succeed. The quoted paths reach
the commands as they are; times and the audit are left out.
-/

namespace Persai.WorkspaceFiles

open Segments WorkspacePaths

abbrev Path := List (List Char)

/-- The volume of the workspace. -/
abbrev Pod := FileTree (List Char) Bytes

structure State where
  pod : Pod
  bucket : Bucket

/-! ## Shell commands -/

/-- The exit code, and the pod then. -/
abbrev Command := Pod → Nat × Pod

/-- The path in the volume; what is not mounted is only ever made a directory, which it is. -/
def volumePath (path : String) : Path := (segments '/' path.toList).tail

namespace Command

/-- `&&`. -/
def andThen (first next : Command) : Command := fun pod =>
  if (first pod).1 = 0 then next (first pod).2 else first pod

/-- `:`. -/
def skip : Command := fun pod => (0, pod)

/-- `mkdir -p`. -/
def mkdirs (path : Path) : Command := fun pod =>
  (if (pod.mkdirs [] path).1 then 0 else 1, (pod.mkdirs [] path).2)

/-- `cat >`. -/
def cat (path : Path) (stdin : Bytes) : Command := fun pod =>
  match pod.place path (.file stdin) with
  | some pod => (0, pod)
  | none => (1, pod)

/-- `cp -f`. -/
def cp (source target : Path) : Command := fun pod =>
  match pod.copyFile source target with
  | some pod => (0, pod)
  | none => (1, pod)

/-- `rm -f` or `rm -rf`. The mount is emptied and stays. -/
def rm (recursive : Bool) (path : Path) : Command := fun pod =>
  if ne : path ≠ [] then
    match pod.node? path with
    | none => (0, pod)
    | some (.file _) => (0, pod.remove path ne)
    | some .directory => if recursive then (0, pod.remove path ne) else (1, pod)
  else (1, if recursive then pod.emptied else pod)

/-- `if [ -e … ]; then exit …; fi`. -/
def exitIfExists (path : Path) (code : Nat) : Command := fun pod =>
  (if pod.node? path = none then 0 else code, pod)

/-- `if [ ! -e … ]; then exit …; fi`. -/
def exitUnlessExists (path : Path) (code : Nat) : Command := fun pod =>
  (if pod.node? path = none then code else 0, pod)

end Command

/-- What is stored under a key that is pulled is written to its path. -/
def hydrateObject (storage : Storage) (pulled : String → Bool) (pod : Pod)
    (row : String × Bytes) : Pod :=
  if startsWith row.1 (storage.buildWorkspacePrefix none) && pulled row.1 then
    let path := storage.pathOfKey row.1
    (((Command.mkdirs path.dropLast).andThen (Command.cat path row.2)) pod).2
  else pod

/-- What the bridge to the pod does to it before a command. -/
def pull (storage : Storage) (pulled : String → Bool) (s : State) : Pod :=
  s.bucket.rows.foldl (hydrateObject storage pulled) s.pod

def execShellInSessionPod (storage : Storage) (pulled : String → Bool) (command : Command)
    (s : State) : Nat × State :=
  let result := command (pull storage pulled s)
  (result.1, { s with pod := result.2 })

/-! ## Results -/

inductive WorkspaceFileBridgeFailureReason
  | writeDenied | createOnlyCollision | writeFailed | workspaceQuotaExhausted | pathNotFound
  | deleteFailed | copyFailed
  deriving DecidableEq, Repr

structure WorkspaceFileBridgeResult (α : Type) where
  success : Bool
  reason : Option WorkspaceFileBridgeFailureReason
  data : α

abbrev Answer (α : Type) := WorkspaceFileBridgeResult α × State

structure WorkspaceBridgeContext where
  workspaceQuotaBytes : Option Nat
  sharedQuotaBytes : Option Nat

/-- What is outside of the bridge during a call. -/
structure Surroundings where
  /-- What `du` says, if it is a size. -/
  diskUsage : Option Nat
  /-- What `find` prints of the directory that is listed. -/
  listing : String
  now : Nat
  /-- The keys that are pulled before the first command that names paths. -/
  pulled : String → Bool
  /-- And before the second. -/
  pulledAgain : String → Bool

/-! ## Writing -/

def parentDir (absolutePath : String) : String :=
  let upToSeparator := absolutePath.toList.rdropWhile (· ≠ '/')
  if upToSeparator.length ≤ 1 then "/" else String.ofList upToSeparator.dropLast

def basename (absolutePath : String) : String :=
  String.ofList (absolutePath.toList.rtakeWhile (· ≠ '/'))

def checkStorageQuotaBeforeWrite (ctx : WorkspaceBridgeContext) (around : Surroundings)
    (newBytes : Nat) : Option WorkspaceFileBridgeFailureReason :=
  match [ctx.sharedQuotaBytes, ctx.workspaceQuotaBytes].filterMap id with
  | [] => none
  | cap :: caps =>
    match around.diskUsage with
    | none => none
    | some currentBytes =>
      if caps.foldl min cap < currentBytes + newBytes then some .workspaceQuotaExhausted else none

/-- The paths of the entries in what `find` printed. -/
def listedPaths (stdout : String) : List String :=
  (stdout.toList.splitOn '\n').filterMap fun rawLine =>
    let line := rawLine.rdropWhile isTrimmed
    let parts := line.splitOn '\t'
    if line = [] ∨ parts.length < 4 then none else parts.head?.map String.ofList

def workspaceFileList (storage : Storage) (around : Surroundings) (path : String) (s : State) :
    Except WorkspacePathError (Answer (List String)) := do
  let resolved ← assertAllowedMountPrefix path
  let directory : Command := fun pod =>
    (if pod.node? (volumePath resolved.absolutePath) = some .directory then 0 else 65, pod)
  let (exitCode, s) := execShellInSessionPod storage around.pulled directory s
  if exitCode = 65 then return (⟨false, some .pathNotFound, []⟩, s)
  else return (⟨true, none, listedPaths around.listing⟩, s)

def resolveWorkspaceWritePath (storage : Storage) (around : Surroundings) (path : String)
    (replace : Bool) (s : State) : Except WorkspacePathError (Answer String) := do
  let requested ← assertAllowedMountPrefix path
  if replace then return (⟨true, none, requested.absolutePath⟩, s)
  else
    let parentPath := parentDir requested.absolutePath
    let (parentList, s) ← workspaceFileList storage around parentPath s
    if !parentList.success then
      if parentList.reason = some .pathNotFound then
        return (⟨true, none, requested.absolutePath⟩, s)
      else
        return (⟨false, some (parentList.reason.getD .writeFailed), requested.absolutePath⟩, s)
    else
      let name := basename requested.absolutePath
      let resolvedBasename :=
        resolveMacOsCollisionBasename name (parentList.data.map basename) around.now
      return (⟨true, none,
        if resolvedBasename = name then requested.absolutePath
        else parentPath ++ "/" ++ resolvedBasename⟩, s)

inductive WriteMode
  | overwrite | createOnly
  deriving DecidableEq, Repr

structure WriteInput where
  path : String
  contents : Bytes
  mode : Option WriteMode
  replace : Bool

structure WriteData where
  resolvedPath : String
  bytes : Nat
  deriving DecidableEq, Repr

def writeCommand (createOnly : Bool) (resolvedPath : String) (contents : Bytes) : Command :=
  ((Command.mkdirs (volumePath (parentDir resolvedPath))).andThen
    (if createOnly then .exitIfExists (volumePath resolvedPath) 64 else .skip)).andThen
    (.cat (volumePath resolvedPath) contents)

/-- A file that has to be new is written where it was asked for. -/
def resolveWriteTarget (storage : Storage) (around : Surroundings) (createOnly replace : Bool)
    (path : String) (s : State) : Except WorkspacePathError (Answer String) :=
  if createOnly then .ok (⟨true, none, path⟩, s)
  else resolveWorkspaceWritePath storage around path replace s

/-- The write at the path it was resolved to. -/
def writeResolved (storage : Storage) (around : Surroundings) (createOnly : Bool)
    (contents : Bytes) (resolvedTarget : WorkspaceFileBridgeResult String) (s : State) :
    Answer WriteData :=
  let resolvedPath := resolvedTarget.data
  if !resolvedTarget.success then (⟨false, resolvedTarget.reason, ⟨resolvedPath, 0⟩⟩, s)
  else
    let command := writeCommand createOnly resolvedPath contents
    let data := ⟨resolvedPath, contents.length⟩
    match execShellInSessionPod storage around.pulledAgain command s with
    | (exitCode, s) =>
      if exitCode = 0 then
        (⟨true, none, data⟩,
          { s with bucket := saveObject s.bucket (storage.objectKey resolvedPath) contents })
      else
        (⟨false, some (if exitCode = 64 then .createOnlyCollision else .writeFailed), data⟩, s)

def workspaceFileWrite (storage : Storage) (ctx : WorkspaceBridgeContext) (around : Surroundings)
    (input : WriteInput) (s : State) : Except WorkspacePathError (Answer WriteData) := do
  let requested ← assertAllowedMountPrefix input.path
  if (classifyVisibleWorkspacePath requested.absolutePath).kind = .rootFlatFile then
    return (⟨false, some .writeDenied, ⟨requested.absolutePath, 0⟩⟩, s)
  else
    match checkStorageQuotaBeforeWrite ctx around input.contents.length with
    | some reason => return (⟨false, some reason, ⟨requested.absolutePath, 0⟩⟩, s)
    | none =>
      let replace := input.replace || input.mode == some .overwrite
      let createOnly := input.mode == some .createOnly
      let (resolvedTarget, s) ←
        resolveWriteTarget storage around createOnly replace requested.absolutePath s
      return writeResolved storage around createOnly input.contents resolvedTarget s

/-! ## Copying -/

def maxReadBytes : Nat := 16 * 1024 * 1024

structure ReadResult where
  path : String
  bytes : Bytes
  truncated : Bool

def workspaceFileRead (storage : Storage) (pulled : String → Bool) (path : String)
    (requestedBytes : Option Nat) (s : State) :
    Except WorkspacePathError (Answer (Option ReadResult)) := do
  let resolved ← assertAllowedMountPrefix path
  let maxBytes := min (requestedBytes.getD maxReadBytes) maxReadBytes
  let s := { s with pod := pull storage pulled s }
  match s.pod.file? (volumePath resolved.absolutePath) with
  | none => return (⟨false, some .pathNotFound, none⟩, s)
  | some content =>
    let bytes := content.take maxBytes
    return (⟨true, none, some ⟨resolved.absolutePath, bytes, maxBytes < content.length⟩⟩, s)

structure CopyData where
  sourcePath : String
  targetPath : String
  bytes : Nat
  deriving DecidableEq, Repr

def copyCommand (source target : String) : Command :=
  (Command.mkdirs (volumePath (parentDir target))).andThen
    (.cp (volumePath source) (volumePath target))

/-- What was copied is stored, if it can be read. -/
def storeRead (storage : Storage) (source target : String) (readResult : Option ReadResult)
    (s : State) : Answer CopyData :=
  match readResult with
  | none => (⟨true, none, ⟨source, target, 0⟩⟩, s)
  | some read =>
    (⟨true, none, ⟨source, target, read.bytes.length⟩⟩,
      { s with bucket := saveObject s.bucket (storage.objectKey target) read.bytes })

def copyResolved (storage : Storage) (around : Surroundings) (source target : String)
    (s : State) : Except WorkspacePathError (Answer CopyData) :=
  if source = target then
    let s := { s with pod := pull storage around.pulled s }
    let bytes := ((s.pod.file? (volumePath source)).map List.length).getD 0
    .ok (⟨true, none, ⟨source, target, bytes⟩⟩, s)
  else
    match execShellInSessionPod storage around.pulled (copyCommand source target) s with
    | (exitCode, s) =>
      if exitCode ≠ 0 then .ok (⟨false, some .copyFailed, ⟨source, target, 0⟩⟩, s)
      else do
        let (readResult, s) ← workspaceFileRead storage around.pulledAgain target none s
        return storeRead storage source target readResult.data s

def workspaceFileCopy (storage : Storage) (around : Surroundings) (sourcePath targetPath : String)
    (s : State) : Except WorkspacePathError (Answer CopyData) := do
  let source ← assertAllowedMountPrefix sourcePath
  let target ← assertAllowedMountPrefix targetPath
  copyResolved storage around source.absolutePath target.absolutePath s

/-! ## Deleting -/

def deleteCommand (recursive : Bool) (path : String) : Command :=
  (Command.exitUnlessExists (volumePath path) 65).andThen (.rm recursive (volumePath path))

def deleteResolved (storage : Storage) (around : Surroundings) (recursive : Bool)
    (path : String) (s : State) : Answer Bool :=
  match execShellInSessionPod storage around.pulled (deleteCommand recursive path) s with
  | (exitCode, s) =>
    if exitCode = 65 then (⟨false, some .pathNotFound, false⟩, s)
    else if exitCode = 0 then
      (⟨true, none, true⟩, { s with bucket := deletePrefix s.bucket (storage.objectKey path) })
    else (⟨false, some .deleteFailed, false⟩, s)

def workspaceFileDelete (storage : Storage) (around : Surroundings) (path : String)
    (recursive : Bool) (s : State) : Except WorkspacePathError (Answer Bool) := do
  let resolved ← assertAllowedMountPrefix path
  return deleteResolved storage around recursive resolved.absolutePath s

/-! ## Calls -/

inductive Call
  | write (ctx : WorkspaceBridgeContext) (input : WriteInput)
  | copy (sourcePath targetPath : String)
  | delete (path : String) (recursive : Bool)

structure Event where
  call : Call
  around : Surroundings

/-- Whether the call reports success, and the state after it. -/
def Event.outcome (storage : Storage) (s : State) (e : Event) : Bool × State :=
  match e.call with
  | .write ctx input => settle (workspaceFileWrite storage ctx e.around input s)
  | .copy sourcePath targetPath =>
    settle (workspaceFileCopy storage e.around sourcePath targetPath s)
  | .delete path recursive => settle (workspaceFileDelete storage e.around path recursive s)
where
  /-- A path that is refused changes nothing. -/
  settle {α : Type} : Except WorkspacePathError (Answer α) → Bool × State
    | .error _ => (false, s)
    | .ok (result, after) => (result.success, after)

def step (storage : Storage) (s : State) (e : Event) : State := (e.outcome storage s).2

end Persai.WorkspaceFiles
