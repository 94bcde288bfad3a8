import Mathlib.Data.List.Basic
import Persai.Faults

/-!
# The garbage collection of workspaces

A lease names a subtree that is to be deleted: of a session, of an assistant or of a workspace. A
tick takes the leases that are due and purges one after the other: the objects in the storage, the
files in the pods that run, the rows of the metadata, and then the lease is closed. What throws
outside a handler ends the purge, and the lease stays open.

The pods are asked for; what is run in them is caught for each pod and changes neither the objects
nor the rows. Identifiers are UUIDs where the metadata is read, so that the pattern of a path has
no wildcard but its last one.
-/

namespace Persai.WorkspaceGc

open Faults

abbrev Name := List Char

/-! ## Leases -/

structure SessionMetadata where
  workspaceId : Name
  assistantId : Name
  sessionId : Option Name
  deriving DecidableEq

structure AssistantMetadata where
  workspaceId : Name
  assistantId : Name
  deriving DecidableEq

/-- The kind of a lease with its metadata as the schema reads it; none where it is rejected. -/
inductive LeaseKind
  | sessionSubtree (metadata : Option SessionMetadata)
  | assistantSubtree (metadata : Option AssistantMetadata)
  | workspaceSubtree (metadata : Option Unit)
  deriving DecidableEq

structure Lease where
  id : ℕ
  kind : LeaseKind
  targetId : Name
  scheduledAt : ℕ
  purgedAt : Option ℕ
  deriving DecidableEq

/-- A row of `workspace_file_metadata`. -/
structure Row where
  workspaceId : Name
  path : Name
  deriving DecidableEq

structure Store where
  objects : List Name
  rows : List Row
  leases : List Lease
  deriving DecidableEq

namespace Store

/-- Objects and rows are deleted. -/
def shrink (keepObject : Name → Bool) (keepRow : Row → Bool) (s : Store) : Store :=
  { s with objects := s.objects.filter keepObject, rows := s.rows.filter keepRow }

def closeLease (id now : ℕ) (s : Store) : Store :=
  { s with leases := s.leases.map fun lease =>
      if lease.id = id then { lease with purgedAt := some now } else lease }

end Store

/-! ## Paths -/

def assistantRoot (assistantId : Name) : Name := "/workspace/assistants/".toList ++ assistantId

def sessionRoot (assistantId sessionId : Name) : Name :=
  assistantRoot assistantId ++ "/sessions/".toList ++ sessionId

def relative (root : Name) : Name := root.drop "/workspace/".length

section

variable (mediaPrefix : Name)

/-- `buildWorkspacePrefix`; a part of the workspace is named by its root. -/
def workspacePrefix (workspaceId : Name) (root : Option Name) : Name :=
  mediaPrefix ++ "/workspaces/".toList ++ workspaceId ++ "/workspace/".toList ++
    match root with
    | none => []
    | some root => relative root ++ ['/']

/-- The snapshots of an assistant's sandbox, or of one of its sessions. -/
def snapshotPrefix (assistantId : Name) (sessionId : Option Name) : Name :=
  mediaPrefix ++ "/assistants/".toList ++ assistantId ++ "/sandbox-sessions/".toList ++
    match sessionId with
    | none => []
    | some sessionId => sessionId ++ ['/']

/-! ## Purges -/

/-- What `deletePrefix` does: it deletes all there is, or throws with some objects left. -/
inductive Deletion
  | returns
  | throws (error : String) (survives : Name → Bool)

/-- What the calls do for one lease. -/
structure Answers where
  deletePrefix : Deletion
  deleteSnapshots : Deletion
  listPods : Except String Unit
  deleteRows : Outcome
  markPurged : Outcome

def deletePrefix (deletion : Deletion) (base : Name) : Program Store Unit := fun s =>
  match deletion with
  | .returns => .ok () (s.shrink (fun key => !base.isPrefixOf key) fun _ => true)
  | .throws error survives =>
    .error error (s.shrink (fun key => !base.isPrefixOf key || survives key) fun _ => true)

/-- `path LIKE base%` -/
def rowUnder (workspaceId base : Name) (row : Row) : Bool :=
  row.workspaceId = workspaceId && base.isPrefixOf row.path

def deleteRows (outcome : Outcome) (workspaceId base : Name) : Program Store Unit :=
  statement outcome (Store.shrink (fun _ => true) fun row => !rowUnder workspaceId base row)

def caught (p : Program Store Unit) : Program Store Unit := tryCatch p fun _ => pure ()

variable (now : ℕ) (answers : Answers)

def purgeSessionSubtree (lease : Lease) (metadata : Option SessionMetadata) :
    Program Store Unit := do
  match metadata with
  | none => throw "ZodError"
  | some metadata =>
    match metadata.sessionId with
    | some sessionId =>
      let root := sessionRoot metadata.assistantId sessionId
      deletePrefix answers.deletePrefix
        (workspacePrefix mediaPrefix metadata.workspaceId (some root))
      caught (deletePrefix answers.deleteSnapshots
        (snapshotPrefix mediaPrefix metadata.assistantId (some sessionId)))
      ask answers.listPods
      deleteRows answers.deleteRows metadata.workspaceId (root ++ ['/'])
    | none =>
      deletePrefix answers.deletePrefix (snapshotPrefix mediaPrefix metadata.assistantId none)
    statement answers.markPurged (Store.closeLease lease.id now)

def purgeAssistantSubtree (lease : Lease) (metadata : Option AssistantMetadata) :
    Program Store Unit := do
  match metadata with
  | none => throw "ZodError"
  | some metadata =>
    let root := assistantRoot metadata.assistantId
    caught (deletePrefix answers.deletePrefix
      (workspacePrefix mediaPrefix metadata.workspaceId (some root)))
    ask answers.listPods
    deleteRows answers.deleteRows metadata.workspaceId (root ++ ['/'])
    statement answers.markPurged (Store.closeLease lease.id now)

def purgeWorkspaceSubtree (lease : Lease) (metadata : Option Unit) : Program Store Unit := do
  match metadata with
  | none => throw "ZodError"
  | some _ =>
    caught (deletePrefix answers.deletePrefix (workspacePrefix mediaPrefix lease.targetId none))
    ask answers.listPods
    deleteRows answers.deleteRows lease.targetId "/workspace/".toList
    statement answers.markPurged (Store.closeLease lease.id now)

def purgeLease (lease : Lease) : Program Store Unit :=
  caught (match lease.kind with
    | .sessionSubtree metadata => purgeSessionSubtree mediaPrefix now answers lease metadata
    | .assistantSubtree metadata => purgeAssistantSubtree mediaPrefix now answers lease metadata
    | .workspaceSubtree metadata => purgeWorkspaceSubtree mediaPrefix now answers lease metadata)

end

/-! ## Ticks -/

/-- An eager tick asks for one kind and target. -/
structure Filter where
  ofKind : LeaseKind → Bool
  targetId : Name

def isDue (now : ℕ) (filter : Option Filter) (lease : Lease) : Bool :=
  lease.purgedAt.isNone && lease.scheduledAt ≤ now &&
    match filter with
    | none => true
    | some filter => filter.ofKind lease.kind && lease.targetId = filter.targetId

def scanLimit : ℕ := 50

def dueLeases (s : Store) (now : ℕ) (filter : Option Filter) : List Lease :=
  ((s.leases.filter (isDue now filter)).mergeSort
    fun a b => a.scheduledAt ≤ b.scheduledAt).take scanLimit

/-- What happens to the store: files are written, a lease is made, or a tick runs. -/
inductive Event
  | write (objects : List Name) (rows : List Row)
  | schedule (lease : Lease)
  | tick (now : ℕ) (filter : Option Filter) (scan : Except String Unit) (answers : ℕ → Answers)

/-- The leases in turn, each with the answers its calls get. -/
def purgeAll (mediaPrefix : Name) (now : ℕ) (answers : ℕ → Answers) (s : Store) :
    List Lease → Store
  | [] => s
  | lease :: rest =>
    purgeAll mediaPrefix now answers
      (final (purgeLease mediaPrefix now (answers lease.id) lease) s) rest

def step (mediaPrefix : Name) (s : Store) : Event → Store
  | .write objects rows => { s with objects := objects ++ s.objects, rows := rows ++ s.rows }
  | .schedule lease =>
    if s.leases.any fun other => other.id = lease.id then s
    else { s with leases := { lease with purgedAt := none } :: s.leases }
  | .tick now filter scan answers =>
    match scan with
    | .error _ => s
    | .ok _ => purgeAll mediaPrefix now answers s (dueLeases s now filter)

end Persai.WorkspaceGc
