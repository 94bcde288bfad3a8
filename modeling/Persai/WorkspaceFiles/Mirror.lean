import Persai.WorkspaceFiles.Bridge

/-!
# The mirror of the files of a workspace

The objects of the workspace and the files of the pod: when they agree, that what is pulled then
changes nothing, and what storing and removing a file in both does to the agreement.
-/

namespace Persai.WorkspaceFiles

open Segments WorkspacePaths

variable {storage : Storage} {s s' : State} {path other : Path} {content : Bytes}

/-! ## Paths -/

theorem kept_workspace : Kept "workspace".toList :=
  ⟨⟨by decide, by decide⟩, ⟨by decide, by decide⟩, by decide, by decide⟩

theorem kept_mounted (kept : ∀ name ∈ path, Kept name) :
    ∀ name ∈ "workspace".toList :: path, Kept name := by
  intro name mem
  rcases List.mem_cons.mp mem with is_root | mem
  · exact is_root ▸ kept_workspace
  · exact kept name mem

theorem toList_ofSegments (parts : Path) : (ofSegments parts).toList = absolute '/' parts :=
  String.toList_ofList

theorem segments_mounted (kept : ∀ name ∈ path, Kept name) :
    segments '/' (mounted path).toList = "workspace".toList :: path := by
  rw [mounted, toList_ofSegments]
  exact segments_absolute fun name mem => (kept_mounted kept name mem).part

theorem volumePath_mounted (kept : ∀ name ∈ path, Kept name) :
    volumePath (mounted path) = path := by
  rw [volumePath, segments_mounted kept, List.tail_cons]

/-- What is accepted is a path of the workspace. -/
theorem mounted_of_accepted {input : String} {r : ResolvedWorkspacePath}
    (accepted : assertAllowedMountPrefix input = .ok r) :
    ∃ path : Path, (∀ name ∈ path, Kept name) ∧ r.absolutePath = mounted path := by
  obtain ⟨resolved, resolves, same, under⟩ := resolves_of_accepted accepted
  have whole : segments '/' (ofSegments resolved).toList = resolved := by
    rw [toList_ofSegments]
    exact segments_absolute fun name mem => (resolves.kept name mem).part
  have cut : ∃ path : Path, resolved = "workspace".toList :: path := by
    rcases under with is_root | below
    · exact ⟨[], by rw [← whole, is_root]; decide⟩
    · obtain ⟨rest, text⟩ := startsWith_iff.mp below
      have root : segments '/' workspaceRoot.toList = ["workspace".toList] := by decide
      have starts : (workspaceRoot ++ "/").toList = workspaceRoot.toList ++ ['/'] := by decide
      refine ⟨segments '/' rest, ?_⟩
      rw [← whole, text, starts, List.append_assoc, List.singleton_append, segments_append_sep,
        root]
      rfl
  obtain ⟨path, rfl⟩ := cut
  exact ⟨path, fun name mem => resolves.kept name (List.mem_cons_of_mem _ mem), same⟩

theorem accepted_mounted {r : ResolvedWorkspacePath} (kept : ∀ name ∈ path, Kept name)
    (accepted : assertAllowedMountPrefix (mounted path) = .ok r) :
    r.absolutePath = mounted path := by
  have keeps := kept_mounted kept
  obtain ⟨resolved, resolves, same⟩ := absolutePath_of_accepted accepted
  have again := resolves.ok
  rw [mounted, pathSegments_ofSegments keeps, resolveSegments_of_kept _ keeps] at again
  rw [same, mounted, ← Except.ok.inj again]
  rfl

theorem mounted_append (init : Path) (name : List Char) :
    (mounted (init ++ [name])).toList = (mounted init).toList ++ '/' :: name := by
  rw [mounted, mounted, toList_ofSegments, toList_ofSegments, ← List.cons_append,
    absolute_append (List.cons_ne_nil _ _) (List.cons_ne_nil _ _)]
  simp [absolute]

theorem parentDir_mounted (init : Path) {name : List Char} (part : IsPart '/' name) :
    parentDir (mounted (init ++ [name])) = mounted init := by
  have cut := rdropWhile_last part.2 (mounted init).toList
  have more : 1 < ((mounted init).toList ++ ['/']).length := by
    simp [mounted, toList_ofSegments, absolute]
  rw [parentDir, mounted_append]
  simp only [cut, if_neg (Nat.not_le.mpr more), List.dropLast_concat, String.ofList_toList]

theorem basename_mounted (init : Path) {name : List Char} (part : IsPart '/' name) :
    basename (mounted (init ++ [name])) = String.ofList name := by
  rw [basename, mounted_append, rtakeWhile_last part.2]

/-! ## The agreement -/

def keyOf (storage : Storage) (path : Path) : String := storage.objectKey (mounted path)

/-- The objects of the workspace are the files of the pod. -/
structure Agrees (storage : Storage) (s : State) : Prop where
  stored : ∀ path content, s.pod.file? path = some content →
    s.bucket.get? (keyOf storage path) = some content
  noOther : ∀ key, startsWith key (storage.buildWorkspacePrefix none) →
    (s.bucket.get? key).isSome → ∃ path, (s.pod.file? path).isSome ∧ keyOf storage path = key

/-- The names that a path of the workspace can have: none has a backslash. -/
def PlainNames (pod : Pod) : Prop :=
  ∀ path, (pod.file? path).isSome → ∀ name ∈ path, Kept name

structure Mirrored (storage : Storage) (s : State) : Prop where
  agrees : Agrees storage s
  plain : PlainNames s.pod

theorem ne_nil_of_file {pod : Pod} (found : (pod.file? path).isSome) : path ≠ [] := by
  intro is_root
  rw [is_root, FileTree.file?_of_directory pod.root] at found
  cases found

theorem Mirrored.inside (mirrored : Mirrored storage s) {path : Path}
    (found : (s.pod.file? path).isSome) : path ≠ [] ∧ ∀ name ∈ path, Kept name :=
  ⟨ne_nil_of_file found, mirrored.plain path found⟩

/-- What is pulled is stored under the keys of files. -/
def OfFiles (storage : Storage) (pod : Pod) (rows : List (String × Bytes)) : Prop :=
  ∀ row ∈ rows, startsWith row.1 (storage.buildWorkspacePrefix none) →
    ∃ path : Path, (pod.file? path).isSome ∧ (∀ name ∈ path, Kept name) ∧
      keyOf storage path = row.1

/-- One file that is there is written. -/
theorem restore_file {pod : Pod} (found : (pod.file? path).isSome) (buffer : Bytes)
    (other : Path) :
    (((Command.mkdirs path.dropLast).andThen (Command.cat path buffer)) pod).2.node? other =
      if other = path then some (.file buffer) else pod.node? other := by
  obtain ⟨content, found⟩ := Option.isSome_iff_exists.mp found
  have node := FileTree.file?_eq_some.mp found
  have ne : path ≠ [] := ne_nil_of_file (by rw [found]; rfl : (pod.file? path).isSome)
  have parent : pod.node? path.dropLast = some .directory := by
    rw [← List.dropLast_append_getLast ne] at node
    exact FileTree.directory_of_above node (List.cons_ne_nil _ _)
  have made : pod.mkdirs [] path.dropLast = (true, pod) := FileTree.mkdirs_of_directory parent
  have admits : pod.Admits path := ⟨ne, parent, by rw [node]; nofun⟩
  obtain ⟨pod', placed⟩ : ∃ pod', pod.place path (.file buffer) = some pod' :=
    ⟨_, dif_pos admits⟩
  simp only [Command.andThen, Command.mkdirs, made, Command.cat, placed, if_true]
  exact FileTree.node?_place placed other

/-- The same files are there then. -/
theorem isSome_of_restored {pod after : Pod} (found : (pod.file? path).isSome) {buffer : Bytes}
    (nodes : ∀ other, after.node? other =
      if other = path then some (.file buffer) else pod.node? other) (other : Path) :
    (after.file? other).isSome = (pod.file? other).isSome := by
  by_cases same : other = path
  · rw [same, found, FileTree.file?_eq_some.mpr (by rw [nodes, if_pos rfl])]
    rfl
  · have node : after.node? other = pod.node? other := by rw [nodes, if_neg same]
    rw [FileTree.file?_congr node]

theorem startsWith_keyOf (storage : Storage) (ne : path ≠ []) (kept : ∀ name ∈ path, Kept name) :
    startsWith (keyOf storage path) (storage.buildWorkspacePrefix none) := by
  rw [keyOf, objectKey_mounted storage ne kept]
  exact startsWith_iff.mpr ⟨_, String.toList_append⟩

/-- The files whose keys are pulled get what is stored for them, and nothing else changes. -/
theorem node?_hydrate {pulled : String → Bool} {rows : List (String × Bytes)}
    (unique : (rows.map Prod.fst).Nodup) {pod : Pod} (plain : PlainNames pod)
    (ofFiles : OfFiles storage pod rows) (path : Path) :
    (rows.foldl (hydrateObject storage pulled) pod).node? path =
      if (pod.file? path).isSome ∧ pulled (keyOf storage path) then
        ((rows.lookup (keyOf storage path)).map .file).or (pod.node? path)
      else pod.node? path := by
  induction rows generalizing pod with
  | nil => simp
  | cons row rows ih =>
    have unique_rest := (List.nodup_cons.mp unique).2
    have fresh := (List.nodup_cons.mp unique).1
    have ofFiles_rest : OfFiles storage pod rows := fun other mem =>
      ofFiles other (List.mem_cons_of_mem _ mem)
    rw [List.foldl_cons, hydrateObject]
    split
    next hydrated =>
      obtain ⟨starts, pulled_row⟩ := Bool.and_eq_true_iff.mp hydrated
      obtain ⟨target, found, kept, key⟩ := ofFiles row List.mem_cons_self starts
      have ne := ne_nil_of_file found
      have path_of_key : storage.pathOfKey row.1 = target := by
        rw [← key]
        exact pathOfKey_objectKey storage ne kept
      obtain ⟨after, is_after, nodes⟩ : ∃ after : Pod,
          (((Command.mkdirs target.dropLast).andThen (Command.cat target row.2)) pod).2 = after ∧
            ∀ other, after.node? other =
              if other = target then some (.file row.2) else pod.node? other :=
        ⟨_, rfl, restore_file found row.2⟩
      have files := isSome_of_restored found nodes
      have plain_after : PlainNames after := fun other there => plain other (files other ▸ there)
      have ofFiles_after : OfFiles storage after rows := by
        intro other mem starts
        obtain ⟨path, there, kept, key⟩ := ofFiles_rest other mem starts
        exact ⟨path, files path ▸ there, kept, key⟩
      simp only [path_of_key, is_after]
      rw [ih unique_rest plain_after ofFiles_after, files, nodes]
      by_cases same : path = target
      · subst same
        have absent : rows.lookup (keyOf storage path) = none :=
          List.lookup_eq_none_iff.mpr fun other mem => by
            simpa using fun same : keyOf storage path = other.1 =>
              fresh (key ▸ same ▸ List.mem_map_of_mem mem)
        rw [if_pos rfl, found, key, pulled_row, if_pos ⟨rfl, rfl⟩, if_pos ⟨rfl, rfl⟩, ← key, absent,
          List.lookup_cons, key, beq_self_eq_true]
        rfl
      · rw [if_neg same]
        by_cases applies : (pod.file? path).isSome ∧ pulled (keyOf storage path)
        · have apart : keyOf storage path ≠ row.1 := fun equal =>
            same (objectKey_injective storage (ne_nil_of_file applies.1) ne (plain path applies.1)
              kept (equal.trans key.symm))
          rw [List.lookup_cons, beq_false_of_ne apart]
        · rw [if_neg applies, if_neg applies]
    next skipped =>
      rw [ih unique_rest plain ofFiles_rest]
      by_cases applies : (pod.file? path).isSome ∧ pulled (keyOf storage path)
      · have apart : keyOf storage path ≠ row.1 := by
          intro same
          have starts := startsWith_keyOf storage (ne_nil_of_file applies.1) (plain path applies.1)
          exact skipped (by rw [← same, starts, applies.2]; rfl)
        rw [List.lookup_cons, beq_false_of_ne apart]
      · rw [if_neg applies, if_neg applies]

theorem Mirrored.ofFiles (mirrored : Mirrored storage s) :
    OfFiles storage s.pod s.bucket.rows := by
  intro row mem starts
  have there : s.bucket.get? row.1 = some row.2 := KeyedTable.get?_eq_some_iff.mpr mem
  obtain ⟨path, found, key⟩ := mirrored.agrees.noOther row.1 starts (by rw [there]; rfl)
  exact ⟨path, found, mirrored.plain path found, key⟩

/-- What is stored for a path is the file there. -/
theorem Mirrored.get?_keyOf (mirrored : Mirrored storage s) (ne : path ≠ [])
    (kept : ∀ name ∈ path, Kept name) :
    s.bucket.get? (keyOf storage path) = s.pod.file? path := by
  cases there : s.bucket.get? (keyOf storage path) with
  | none =>
    cases found : s.pod.file? path with
    | none => rfl
    | some content =>
      rw [mirrored.agrees.stored path content found] at there
      cases there
  | some content =>
    obtain ⟨other, found, same⟩ := mirrored.agrees.noOther _ (startsWith_keyOf storage ne kept)
      (by rw [there]; rfl)
    have is_path : other = path :=
      objectKey_injective storage (ne_nil_of_file found) ne (mirrored.plain other found) kept same
    obtain ⟨bytes, found⟩ := Option.isSome_iff_exists.mp (is_path ▸ found)
    rw [← there, mirrored.agrees.stored path bytes found, found]

/-- Nothing is pulled that is not there already. -/
theorem Mirrored.node?_pull (mirrored : Mirrored storage s) (pulled : String → Bool)
    (path : Path) : (pull storage pulled s).node? path = s.pod.node? path := by
  rw [pull, node?_hydrate s.bucket.unique mirrored.plain mirrored.ofFiles]
  split
  next applies =>
    obtain ⟨content, found⟩ := Option.isSome_iff_exists.mp applies.1
    have stored : s.bucket.rows.lookup (keyOf storage path) = some content :=
      mirrored.agrees.stored path content found
    rw [stored, FileTree.file?_eq_some.mp found]
    rfl
  next => rfl

/-! ## Storing and removing -/

/-- The same files, in the pod and the storage. -/
structure SameFiles (s s' : State) : Prop where
  pod : ∀ path, s'.pod.file? path = s.pod.file? path
  bucket : s'.bucket = s.bucket

/-- One file is written, and stored. -/
structure Stored (storage : Storage) (path : Path) (content : Bytes) (s s' : State) : Prop where
  ne : path ≠ []
  kept : ∀ name ∈ path, Kept name
  pod : ∀ other, s'.pod.file? other = if other = path then some content else s.pod.file? other
  bucket : s'.bucket = saveObject s.bucket (keyOf storage path) content

/-- What lies at a path is removed, and what is stored under the keys that start with its key. -/
structure Removed (storage : Storage) (path : Path) (s s' : State) : Prop where
  ne : path ≠ []
  pod : ∀ other, s'.pod.file? other = if path <+: other then none else s.pod.file? other
  bucket : s'.bucket = deletePrefix s.bucket (keyOf storage path)

theorem Mirrored.same (mirrored : Mirrored storage s) (same : SameFiles s s') :
    Mirrored storage s' where
  agrees.stored path content found := by
    rw [same.bucket]
    exact mirrored.agrees.stored path content (same.pod path ▸ found)
  agrees.noOther key starts there := by
    rw [same.bucket] at there
    obtain ⟨path, found, is_key⟩ := mirrored.agrees.noOther key starts there
    exact ⟨path, same.pod path ▸ found, is_key⟩
  plain path found := mirrored.plain path (same.pod path ▸ found)

theorem Mirrored.stored (mirrored : Mirrored storage s)
    (stored : Stored storage path content s s') : Mirrored storage s' := by
  have apart : ∀ other, (s.pod.file? other).isSome → other ≠ path →
      keyOf storage other ≠ keyOf storage path := by
    intro other found ne same
    obtain ⟨other_ne, other_kept⟩ := mirrored.inside found
    exact ne (objectKey_injective storage other_ne stored.ne other_kept stored.kept same)
  have object : ∀ key, s'.bucket.get? key =
      if key = keyOf storage path then some content else s.bucket.get? key := by
    intro key
    rw [stored.bucket]
    exact KeyedTable.get?_put ..
  refine ⟨⟨?_, ?_⟩, ?_⟩
  · intro other bytes found
    rw [stored.pod] at found
    split at found
    next same => rw [object, same, if_pos rfl, found]
    next ne =>
      rw [object, if_neg (apart other (by rw [found]; rfl) ne)]
      exact mirrored.agrees.stored other bytes found
  · intro key starts there
    rw [object] at there
    split at there
    next same => exact ⟨path, by rw [stored.pod, if_pos rfl]; rfl, same.symm⟩
    next =>
      obtain ⟨other, found, is_key⟩ := mirrored.agrees.noOther key starts there
      refine ⟨other, ?_, is_key⟩
      rw [stored.pod]
      split
      · rfl
      · exact found
  · intro other found
    rw [stored.pod] at found
    split at found
    next same => exact same ▸ stored.kept
    next => exact mirrored.plain other found

/-- Nothing else is removed from the storage, if no other file has such a key. -/
theorem Mirrored.removed (mirrored : Mirrored storage s) (removed : Removed storage path s s')
    (alone : ∀ other ∈ s.pod.files,
      startsWith (keyOf storage other) (keyOf storage path) → path <+: other) :
    Mirrored storage s' := by
  have object : ∀ key, s'.bucket.get? key =
      (s.bucket.get? key).filter fun _ => !startsWith key (keyOf storage path) := by
    intro key
    rw [removed.bucket]
    exact KeyedTable.get?_deleteWhere ..
  refine ⟨⟨?_, ?_⟩, ?_⟩
  · intro other bytes found
    rw [removed.pod] at found
    split at found
    · cases found
    next outside =>
      have stays : startsWith (keyOf storage other) (keyOf storage path) = false := by
        by_contra starts
        exact outside (alone other (FileTree.mem_files found) (by simpa using starts))
      rw [object, mirrored.agrees.stored other bytes found, stays]
      rfl
  · intro key starts there
    obtain ⟨bytes, there⟩ := Option.isSome_iff_exists.mp there
    rw [object, Option.filter_eq_some_iff] at there
    obtain ⟨other, found, is_key⟩ := mirrored.agrees.noOther key starts (by rw [there.1]; rfl)
    have outside : ¬ path <+: other := by
      rintro ⟨rest, rfl⟩
      have under := startsWith_objectKey storage removed.ne (mirrored.plain _ found)
      simp [← is_key, keyOf, under] at there
    exact ⟨other, by rw [removed.pod, if_neg outside]; exact found, is_key⟩
  · intro other found
    rw [removed.pod] at found
    split at found
    · cases found
    · exact mirrored.plain other found

end Persai.WorkspaceFiles
