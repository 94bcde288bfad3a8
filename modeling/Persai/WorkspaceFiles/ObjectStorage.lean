import Persai.KeyedTable
import Persai.WorkspacePaths.Resolution

/-!
# The object storage of workspaces

The keys of `sandbox-object-storage.service.ts`, its bucket and what it does to it. The bucket is
configured, and the pages of a deletion are one.
-/

namespace Persai.WorkspaceFiles

open Segments WorkspacePaths

abbrev Bytes := List UInt8

abbrev Bucket := KeyedTable String Bytes

/-- The configured `PERSAI_MEDIA_OBJECT_PREFIX`, and the workspace. -/
structure Storage where
  mediaObjectPrefix : String
  workspaceId : String

namespace Storage

variable (storage : Storage)

def mediaPrefix : String :=
  String.ofList ((trim storage.mediaObjectPrefix).toList.rdropWhile (· = '/'))

def buildWorkspacePrefix (subPath : Option String) : String :=
  let tail :=
    match subPath with
    | none => ""
    | some subPath => String.ofList (strip (· = '/') subPath.toList) ++ "/"
  storage.mediaPrefix ++ "/workspaces/" ++ storage.workspaceId ++ "/workspace/" ++ tail

/-- `replace(/^\/workspace\/?/, "")`. -/
def dropWorkspaceRoot (path : List Char) : List Char :=
  if workspaceRoot.toList.isPrefixOf path then
    match path.drop workspaceRoot.toList.length with
    | '/' :: rest => rest
    | rest => rest
  else path

def buildWorkspaceObjectKey (workspaceRelPath : String) : String :=
  let relative := replaceRuns '\\' '/'
    ((dropWorkspaceRoot workspaceRelPath.toList).dropWhile (· = '/'))
  storage.mediaPrefix ++ "/workspaces/" ++ storage.workspaceId ++ "/workspace/" ++
    String.ofList relative

def toWorkspaceRelPath (absolutePath : String) : String :=
  if startsWith absolutePath (workspaceRoot ++ "/") then absolutePath
  else workspaceRoot ++ "/" ++ absolutePath

/-- The key of a path in the pod, as the bridge builds it. -/
def objectKey (absolutePath : String) : String :=
  storage.buildWorkspaceObjectKey (toWorkspaceRelPath absolutePath)

end Storage

def saveObject (bucket : Bucket) (objectKey : String) (buffer : Bytes) : Bucket :=
  bucket.put objectKey buffer

def deletePrefix (bucket : Bucket) (start : String) : Bucket :=
  bucket.deleteWhere fun key _ => startsWith key start

/-! ## The keys of the files -/

/-- The path in the pod of what lies there under the workspace. -/
def mounted (path : List (List Char)) : String := ofSegments ("workspace".toList :: path)

theorem startsWith_iff {text start : String} :
    startsWith text start ↔ ∃ rest, text.toList = start.toList ++ rest := by
  rw [startsWith, List.isPrefixOf_iff_prefix]
  exact ⟨fun ⟨rest, joined⟩ => ⟨rest, joined.symm⟩, fun ⟨rest, joined⟩ => ⟨rest, joined.symm⟩⟩

/-- The names of a path with separators between them. -/
def joined (path : List (List Char)) : List Char := ['/'].intercalate path

theorem absolute_joined (path : List (List Char)) : absolute '/' path = '/' :: joined path := rfl

theorem mounted_toList {path : List (List Char)} (ne : path ≠ []) :
    (mounted path).toList = workspaceRoot.toList ++ '/' :: joined path := by
  have root : absolute '/' ["workspace".toList] = workspaceRoot.toList := by decide
  rw [mounted, ofSegments, String.toList_ofList, ← List.singleton_append,
    absolute_append (List.cons_ne_nil _ _) ne, root, absolute_joined]

theorem joined_starts {path : List (List Char)} (ne : path ≠ [])
    (parts : ∀ name ∈ path, IsPart '/' name) : ∃ c rest, c ≠ '/' ∧ joined path = c :: rest := by
  cases path with
  | nil => exact absurd rfl ne
  | cons name path =>
    have part := parts name List.mem_cons_self
    cases name with
    | nil => exact absurd rfl part.1
    | cons c name =>
      have not_sep : c ≠ '/' := fun same => part.2 (same ▸ List.mem_cons_self)
      cases path with
      | nil => exact ⟨c, name, not_sep, List.intercalate_singleton⟩
      | cons next path => exact ⟨c, _, not_sep, by rw [joined, List.intercalate_cons_cons]; rfl⟩

theorem backslash_not_mem_joined {path : List (List Char)} (kept : ∀ name ∈ path, Kept name) :
    '\\' ∉ joined path := by
  intro mem
  have inside : '\\' ∈ absolute '/' path := List.mem_cons_of_mem _ mem
  rcases mem_absolute inside with is_separator | ⟨name, member, mem⟩
  · exact absurd is_separator (by decide)
  · exact (kept name member).noBackslash mem

theorem objectKey_mounted (storage : Storage) {path : List (List Char)} (ne : path ≠ [])
    (kept : ∀ name ∈ path, Kept name) :
    storage.objectKey (mounted path) =
      storage.buildWorkspacePrefix none ++ String.ofList (joined path) := by
  have under : startsWith (mounted path) (workspaceRoot ++ "/") :=
    startsWith_iff.mpr ⟨joined path, by rw [mounted_toList ne]; simp⟩
  have dropped : Storage.dropWorkspaceRoot (mounted path).toList = joined path := by
    rw [Storage.dropWorkspaceRoot, mounted_toList ne, if_pos (by simp), List.drop_left]
    rfl
  obtain ⟨c, rest, not_sep, starts⟩ := joined_starts ne fun name mem => (kept name mem).part
  have no_sep : (joined path).dropWhile (· = '/') = joined path := by
    rw [starts, List.dropWhile_cons_of_neg (by simpa using not_sep)]
  simp only [Storage.objectKey, Storage.toWorkspaceRelPath, under, if_true,
    Storage.buildWorkspaceObjectKey, dropped, no_sep,
    replaceRuns_of_not_mem (backslash_not_mem_joined kept), Storage.buildWorkspacePrefix,
    String.append_empty]

/-- The keys of the files tell their paths. -/
theorem objectKey_injective (storage : Storage) {path other : List (List Char)} (ne : path ≠ [])
    (other_ne : other ≠ []) (kept : ∀ name ∈ path, Kept name)
    (other_kept : ∀ name ∈ other, Kept name)
    (same : storage.objectKey (mounted path) = storage.objectKey (mounted other)) :
    path = other := by
  rw [objectKey_mounted storage ne kept, objectKey_mounted storage other_ne other_kept] at same
  have lists := congrArg String.toList same
  rw [String.toList_append, String.toList_append, String.toList_ofList, String.toList_ofList,
    List.append_cancel_left_eq] at lists
  exact absolute_injective (fun name mem => (kept name mem).part)
    (fun name mem => (other_kept name mem).part) (congrArg ('/' :: ·) lists)

/-- What lies under a path has a key that starts with the key of the path. -/
theorem startsWith_objectKey (storage : Storage) {path rest : List (List Char)} (ne : path ≠ [])
    (kept : ∀ name ∈ path ++ rest, Kept name) :
    startsWith (storage.objectKey (mounted (path ++ rest))) (storage.objectKey (mounted path)) := by
  by_cases more : rest = []
  · subst more
    rw [List.append_nil]
    exact startsWith_iff.mpr ⟨[], (List.append_nil _).symm⟩
  · have joins : joined (path ++ rest) = joined path ++ '/' :: joined rest := by
      have absolutes := @absolute_append Char '/' _ _ ne more
      simpa only [absolute_joined, List.cons_append, List.cons.injEq, true_and] using absolutes
    rw [objectKey_mounted storage (by simp [ne]) kept,
      objectKey_mounted storage ne fun name mem => kept name (List.mem_append_left _ mem), joins]
    exact startsWith_iff.mpr ⟨'/' :: joined rest, by simp⟩

/-! ## The path of a key -/

/-- The path that the bridge to the pod writes what is stored under the key to. -/
def Storage.pathOfKey (storage : Storage) (key : String) : List (List Char) :=
  segments '/' (key.toList.drop (storage.buildWorkspacePrefix none).toList.length)

theorem pathOfKey_objectKey (storage : Storage) {path : List (List Char)} (ne : path ≠ [])
    (kept : ∀ name ∈ path, Kept name) :
    storage.pathOfKey (storage.objectKey (mounted path)) = path := by
  have parts := segments_absolute fun name mem => (kept name mem).part
  rw [absolute_joined, segments_sep] at parts
  rw [objectKey_mounted storage ne kept, Storage.pathOfKey, String.toList_append, List.drop_left,
    String.toList_ofList, parts]

end Persai.WorkspaceFiles
