import Persai.Segments
import Persai.Text

/-!
# The classification of visible workspace paths

`normalizeWorkspacePath`, `classifyVisibleWorkspacePath` and the guards on top of it, as the runtime
and the API use them.
-/

namespace Persai.WorkspacePaths

open Segments

def startsWith (text start : String) : Bool := start.toList.isPrefixOf text.toList

def endsWith (text ending : String) : Bool := ending.toList.isSuffixOf text.toList

def includes (text part : String) : Bool := text.toList.tails.any part.toList.isPrefixOf

/-- `slice(start)`, of a text that begins with `start` characters of one unit. -/
def dropChars (text : String) (start : Nat) : String := String.ofList (text.toList.drop start)

def normalizeWorkspacePath (path : String) : String :=
  let trimmed := trim (String.ofList (replaceEach '\\' '/' path.toList))
  if trimmed.isEmpty then ""
  else
    let collapsed := collapse '/' trimmed.toList
    String.ofList (if 1 < collapsed.length then collapsed.rdropWhile (· = '/') else collapsed)

/-! ## Segments -/

/-- `WORKSPACE_PATH_SEGMENT_PATTERN`. -/
def matchesSegmentPattern : List Char → Bool
  | [] => false
  | c :: rest =>
    c.isAlphanum && rest.length ≤ 127 &&
      rest.all fun c => c.isAlphanum || c == '.' || c == '_' || c == '-'

def isValidWorkspacePathSegment (segment : String) : Bool :=
  let normalized := trim segment
  if normalized.isEmpty || normalized != segment then false
  else if normalized == "." || normalized == ".." then false
  else if normalized.toList.any fun c => c == '/' || c == '\\' || c.toNat < 32 then false
  else matchesSegmentPattern normalized.toList

/-- The segment, or nothing where the builders throw. -/
def assertValidWorkspacePathSegment (segment : String) : Option String :=
  if isValidWorkspacePathSegment segment then some segment else none

def workspaceRoot : String := "/workspace"

def buildAssistantSessionRoot (assistantId sessionId : String) : Option String := do
  let safeAssistantStableKey ← assertValidWorkspacePathSegment assistantId
  let safeSessionId ← assertValidWorkspacePathSegment sessionId
  return workspaceRoot ++ "/assistants/" ++ safeAssistantStableKey ++ "/sessions/" ++ safeSessionId

/-! ## The classification -/

inductive WorkspaceVisiblePathKind
  | workspaceRoot
  | assistantsRoot
  | assistantRoot
  | assistantSessionsRoot
  | sessionRoot
  | sessionDescendant
  | assistantSharedRoot
  | assistantSharedDescendant
  | workspaceSharedRoot
  | workspaceSharedDescendant
  | rootFlatFile
  | staleChatsPath
  | staleProjectsPath
  | unknownWorkspacePath
  | outsideWorkspace
  | invalid
  deriving DecidableEq, Repr

structure WorkspaceVisiblePathInfo where
  kind : WorkspaceVisiblePathKind
  normalizedPath : String
  assistantId : Option String
  sessionId : Option String
  deriving DecidableEq, Repr

def withoutTrailingSeparators (path : String) : String :=
  String.ofList ((replaceEach '\\' '/' path.toList).rdropWhile (· = '/'))

def isWorkspacePathUnderPrefix (path root : String) : Bool :=
  let normalizedPath := withoutTrailingSeparators path
  let normalizedRoot := withoutTrailingSeparators root
  normalizedPath == normalizedRoot || startsWith normalizedPath (normalizedRoot ++ "/")

/-- The kind, the assistant and the session of a path by its segments below the root. -/
def classifySegments : List String → WorkspaceVisiblePathKind × Option String × Option String
  | [] => (.unknownWorkspacePath, none, none)
  | first :: rest =>
    if first = "chats" then (.staleChatsPath, none, none)
    else if first = "projects" then (.staleProjectsPath, none, none)
    else if first = "shared" then
      (if rest.isEmpty then .workspaceSharedRoot else .workspaceSharedDescendant, none, none)
    else if first = "assistants" then
      match rest with
      | [] => (.assistantsRoot, none, none)
      | assistantId :: rest =>
        if !isValidWorkspacePathSegment assistantId then (.invalid, none, none)
        else
          match rest with
          | [] => (.assistantRoot, some assistantId, none)
          | third :: rest =>
            if third = "sessions" then
              match rest with
              | [] => (.assistantSessionsRoot, some assistantId, none)
              | sessionId :: rest =>
                if !isValidWorkspacePathSegment sessionId then (.invalid, some assistantId, none)
                else
                  (if rest.isEmpty then .sessionRoot else .sessionDescendant, some assistantId,
                    some sessionId)
            else if third = "shared" then
              (if rest.isEmpty then .assistantSharedRoot else .assistantSharedDescendant,
                some assistantId, none)
            else (.unknownWorkspacePath, some assistantId, none)
    else (if rest.isEmpty then .rootFlatFile else .unknownWorkspacePath, none, none)

def classifyNormalized (normalizedPath : String) :
    WorkspaceVisiblePathKind × Option String × Option String :=
  if normalizedPath.isEmpty || !startsWith normalizedPath "/" then (.invalid, none, none)
  else if normalizedPath = workspaceRoot then (.workspaceRoot, none, none)
  else if !isWorkspacePathUnderPrefix normalizedPath workspaceRoot then
    (.outsideWorkspace, none, none)
  else
    let relativePath := dropChars normalizedPath (workspaceRoot.length + 1)
    classifySegments ((segments '/' relativePath.toList).map String.ofList)

def classifyVisibleWorkspacePath (path : String) : WorkspaceVisiblePathInfo :=
  let normalizedPath := normalizeWorkspacePath path
  let found := classifyNormalized normalizedPath
  { kind := found.1, normalizedPath, assistantId := found.2.1, sessionId := found.2.2 }

theorem classify_normalizedPath (path : String) :
    (classifyVisibleWorkspacePath path).normalizedPath = normalizeWorkspacePath path := by
  simp only [classifyVisibleWorkspacePath]

def WorkspaceVisiblePathKind.isValid : WorkspaceVisiblePathKind → Bool
  | .workspaceRoot | .assistantsRoot | .assistantRoot | .assistantSessionsRoot | .sessionRoot
  | .sessionDescendant | .assistantSharedRoot | .assistantSharedDescendant | .workspaceSharedRoot
  | .workspaceSharedDescendant => true
  | _ => false

def isValidVisibleWorkspacePath (path : String) : Bool :=
  (classifyVisibleWorkspacePath path).kind.isValid

/-- The root of the session that the path is a descendant of. -/
def WorkspaceVisiblePathInfo.sessionRoot (info : WorkspaceVisiblePathInfo) : Option String :=
  if info.kind ≠ .sessionDescendant then none
  else do buildAssistantSessionRoot (← info.assistantId) (← info.sessionId)

/-- The path is the tree of that name in the session, or lies in it. -/
def inSessionTree (sessionRoot normalized tree : String) : Bool :=
  normalized == sessionRoot ++ "/" ++ tree ||
    startsWith normalized (sessionRoot ++ "/" ++ tree ++ "/")

def WorkspaceVisiblePathInfo.isInstallLayer (info : WorkspaceVisiblePathInfo) : Bool :=
  match info.sessionRoot with
  | none => false
  | some sessionRoot =>
    let normalized := info.normalizedPath
    inSessionTree sessionRoot normalized ".local" ||
      inSessionTree sessionRoot normalized ".npm-global" ||
      let sessionRelative := dropChars normalized (sessionRoot.length + 1)
      sessionRelative == "node_modules" || startsWith sessionRelative "node_modules/" ||
        endsWith sessionRelative "/node_modules" || includes sessionRelative "/node_modules/"

def isSessionInstallLayerPath (path : String) : Bool :=
  (classifyVisibleWorkspacePath path).isInstallLayer

def WorkspaceVisiblePathInfo.isToolSpill (info : WorkspaceVisiblePathInfo) : Bool :=
  match info.sessionRoot with
  | none => false
  | some sessionRoot => inSessionTree sessionRoot info.normalizedPath ".tool-spill"

def isToolSpillPath (path : String) : Bool := (classifyVisibleWorkspacePath path).isToolSpill

/-- `ATTACHABLE_FILE_KINDS` of the runtime's storage plane. -/
def WorkspaceVisiblePathKind.isAttachable : WorkspaceVisiblePathKind → Bool
  | .sessionDescendant | .assistantSharedDescendant | .workspaceSharedDescendant => true
  | _ => false

def isAttachableWorkspaceFilePath (path : String) : Bool :=
  (classifyVisibleWorkspacePath (normalizeWorkspacePath path)).kind.isAttachable

end Persai.WorkspacePaths
