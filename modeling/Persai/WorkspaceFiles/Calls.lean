import Persai.WorkspaceFiles.Mirror

/-!
# What the calls do to the files

From a state in which the storage mirrors the pod, a call leaves both as they are, stores what it
wrote, or removes what it was asked to: with the conditions on a copy and on a deletion that make
it so.
-/

namespace Persai.WorkspaceFiles

open Segments WorkspacePaths

variable {storage : Storage} {s s' : State} {path other : Path} {content : Bytes}

/-! ## Commands -/

/-- The command changes no file. -/
def Command.Keeps (command : Command) : Prop :=
  ∀ pod path, (command pod).2.file? path = pod.file? path

namespace Command

theorem keeps_skip : skip.Keeps := fun _ _ => rfl

theorem keeps_mkdirs (path : Path) : (mkdirs path).Keeps := fun pod other =>
  pod.file?_mkdirs [] path other

theorem keeps_exitIfExists (path : Path) (code : Nat) : (exitIfExists path code).Keeps :=
  fun _ _ => rfl

theorem Keeps.andThen {first next : Command} (keeps : first.Keeps) (next_keeps : next.Keeps) :
    (first.andThen next).Keeps := by
  intro pod path
  rw [Command.andThen]
  split
  · rw [next_keeps, keeps]
  · exact keeps pod path

/-- A file is written after a command that changes none, or nothing is. -/
theorem Keeps.andThen_cat {first : Command} (keeps : first.Keeps) (path : Path) (stdin : Bytes)
    (pod : Pod) :
    (((first.andThen (cat path stdin)) pod).1 = 0 ∧ path ≠ [] ∧
        ∀ other, ((first.andThen (cat path stdin)) pod).2.file? other =
          if other = path then some stdin else pod.file? other) ∨
      ((first.andThen (cat path stdin)) pod).1 ≠ 0 ∧
        ∀ other, ((first.andThen (cat path stdin)) pod).2.file? other = pod.file? other := by
  by_cases goes_on : (first pod).1 = 0
  · simp only [Command.andThen, cat, if_pos goes_on]
    split
    next placed =>
      refine .inl ⟨rfl, (FileTree.admits_of_place placed).1, fun other => ?_⟩
      rw [FileTree.file?_place placed, keeps]
    next => exact .inr ⟨Nat.one_ne_zero, keeps pod⟩
  · simp only [Command.andThen, if_neg goes_on]
    exact .inr ⟨goes_on, keeps pod⟩

end Command

theorem writeCommand_cases (createOnly : Bool) (resolvedPath : String) (contents : Bytes)
    (pod : Pod) :
    ((writeCommand createOnly resolvedPath contents pod).1 = 0 ∧ volumePath resolvedPath ≠ [] ∧
        ∀ other, (writeCommand createOnly resolvedPath contents pod).2.file? other =
          if other = volumePath resolvedPath then some contents else pod.file? other) ∨
      (writeCommand createOnly resolvedPath contents pod).1 ≠ 0 ∧
        ∀ other, (writeCommand createOnly resolvedPath contents pod).2.file? other =
          pod.file? other := by
  refine Command.Keeps.andThen_cat (.andThen (Command.keeps_mkdirs _) ?_) _ contents pod
  cases createOnly
  · exact Command.keeps_skip
  · exact Command.keeps_exitIfExists _ 64

/-! ## Writing -/

theorem volumePath_parentDir (kept : ∀ name ∈ path, Kept name) :
    volumePath (parentDir (mounted path)) = path.dropLast := by
  induction path using List.reverseRecOn with
  | nil => decide
  | append_singleton init name =>
    have part := (kept name (by simp)).part
    rw [parentDir_mounted init part, List.dropLast_concat,
      volumePath_mounted fun other mem => kept other (List.mem_append_left _ mem)]

/-- A command on the files that agree changes them only itself. -/
theorem Mirrored.file?_pull (mirrored : Mirrored storage s) (pulled : String → Bool)
    (path : Path) : (pull storage pulled s).file? path = s.pod.file? path :=
  FileTree.file?_congr (mirrored.node?_pull pulled path)

theorem Mirrored.sameFiles_exec (mirrored : Mirrored storage s) (pulled : String → Bool)
    {command : Command} (keeps : command.Keeps) :
    SameFiles s (execShellInSessionPod storage pulled command s).2 :=
  ⟨fun path => (keeps _ path).trans (mirrored.file?_pull pulled path), rfl⟩

theorem not_accepted_root (r : ResolvedWorkspacePath) : assertAllowedMountPrefix "/" ≠ .ok r := by
  intro accepted
  obtain ⟨resolved, resolves, -, under⟩ := resolves_of_accepted accepted
  have none_left : pathSegments "/" = [] := by decide
  have nothing := resolves.ok
  rw [none_left] at nothing
  cases nothing
  exact absurd under (by decide)

theorem workspaceFileList_sameFiles (mirrored : Mirrored storage s) {around : Surroundings}
    {input : String} {answer : Answer (List String)}
    (done : workspaceFileList storage around input s = .ok answer) : SameFiles s answer.2 := by
  simp only [workspaceFileList, bind, Except.bind] at done
  cases accepted : assertAllowedMountPrefix input with
  | error error => rw [accepted] at done; cases done
  | ok resolved =>
    have same : SameFiles s { s with pod := pull storage around.pulled s } :=
      mirrored.sameFiles_exec around.pulled Command.keeps_skip
    rw [accepted] at done
    dsimp only at done
    split at done
    · cases done; exact same
    · cases done; exact same

theorem accepted_of_listed {around : Surroundings} {input : String}
    {answer : Answer (List String)}
    (done : workspaceFileList storage around input s = .ok answer) :
    ∃ r, assertAllowedMountPrefix input = .ok r := by
  cases accepted : assertAllowedMountPrefix input with
  | error error => simp only [workspaceFileList, bind, Except.bind, accepted] at done; cases done
  | ok r => exact ⟨r, rfl⟩

theorem mounted_sibling (init : Path) (name : String) :
    mounted init ++ "/" ++ name = mounted (init ++ [name.toList]) := by
  rw [← String.toList_inj, mounted_append, String.toList_append, String.toList_append,
    List.append_assoc]
  rfl

/-- The path that is written to is one of the workspace. -/
theorem resolveWorkspaceWritePath_spec (mirrored : Mirrored storage s) {around : Surroundings}
    (kept : ∀ name ∈ path, Kept name) {replace : Bool} {answer : Answer String}
    (done : resolveWorkspaceWritePath storage around (mounted path) replace s = .ok answer) :
    SameFiles s answer.2 ∧
      ∃ target : Path, (∀ name ∈ target, Kept name) ∧ answer.1.data = mounted target := by
  simp only [resolveWorkspaceWritePath, bind, Except.bind] at done
  cases accepted : assertAllowedMountPrefix (mounted path) with
  | error error => rw [accepted] at done; cases done
  | ok requested =>
    have asked := accepted_mounted kept accepted
    rw [accepted] at done
    dsimp only at done
    rw [asked] at done
    split at done
    · cases done
      exact ⟨⟨fun _ => rfl, rfl⟩, path, kept, rfl⟩
    · cases listed : workspaceFileList storage around (parentDir (mounted path)) s with
      | error error => rw [listed] at done; cases done
      | ok parentList =>
        have same := workspaceFileList_sameFiles mirrored listed
        rw [listed] at done
        dsimp only at done
        split at done
        · split at done
          · cases done; exact ⟨same, path, kept, rfl⟩
          · cases done; exact ⟨same, path, kept, rfl⟩
        · cases done
          refine ⟨same, ?_⟩
          induction path using List.reverseRecOn with
          | nil =>
            -- the parent of the root is no path of the workspace
            obtain ⟨r, accepted_parent⟩ := accepted_of_listed listed
            have root : parentDir (mounted []) = "/" := by decide
            rw [root] at accepted_parent
            exact absurd accepted_parent (not_accepted_root r)
          | append_singleton init name =>
            have name_kept := kept name (by simp)
            have init_kept : ∀ other ∈ init, Kept other := fun other mem =>
              kept other (List.mem_append_left _ mem)
            dsimp only
            rw [parentDir_mounted init name_kept.part, basename_mounted init name_kept.part]
            split
            · exact ⟨_, kept, rfl⟩
            · refine ⟨init ++ [_], ?_, mounted_sibling init _⟩
              intro other mem
              rcases List.mem_append.mp mem with mem | is_last
              · exact init_kept other mem
              · rw [List.mem_singleton.mp is_last]
                exact kept_resolved (String.toList_ofList ▸ name_kept) _ _

theorem SameFiles.trans {s'' : State} (first : SameFiles s s') (next : SameFiles s' s'') :
    SameFiles s s'' :=
  ⟨fun path => (next.pod path).trans (first.pod path), next.bucket.trans first.bucket⟩

theorem Stored.after {s'' : State} (stored : Stored storage path content s' s'')
    (same : SameFiles s s') : Stored storage path content s s'' :=
  ⟨stored.ne, stored.kept, fun other => by rw [stored.pod, same.pod],
    by rw [stored.bucket, same.bucket]⟩

theorem exec_eq {pulled : String → Bool} {command : Command} {code : Nat} {after : State}
    (ran : execShellInSessionPod storage pulled command s = (code, after)) :
    (command (pull storage pulled s)).1 = code ∧
      (command (pull storage pulled s)).2 = after.pod ∧ after.bucket = s.bucket := by
  cases ran
  exact ⟨rfl, rfl, rfl⟩

/-- What the command of a write comes to, with what is stored after it. -/
theorem exec_write (mirrored : Mirrored storage s) {pulled : String → Bool} {createOnly : Bool}
    {contents : Bytes} (kept : ∀ name ∈ path, Kept name) {code : Nat} {after : State}
    (ran : execShellInSessionPod storage pulled (writeCommand createOnly (mounted path) contents)
      s = (code, after)) :
    (code = 0 ∧ Stored storage path contents s
        { after with bucket := saveObject after.bucket (keyOf storage path) contents }) ∨
      code ≠ 0 ∧ SameFiles s after := by
  obtain ⟨is_code, is_pod, is_bucket⟩ := exec_eq ran
  have files := mirrored.file?_pull pulled
  have cases := writeCommand_cases createOnly (mounted path) contents (pull storage pulled s)
  rw [is_code, is_pod, volumePath_mounted kept] at cases
  rcases cases with ⟨done, ne, written⟩ | ⟨failed, same⟩
  · refine .inl ⟨done, ne, kept, fun other => ?_, by rw [is_bucket]⟩
    rw [← files]
    exact written other
  · exact .inr ⟨failed, fun other => (same other).trans (files other), is_bucket⟩

theorem resolveWriteTarget_spec (mirrored : Mirrored storage s) {around : Surroundings}
    (kept : ∀ name ∈ path, Kept name) {createOnly replace : Bool} {answer : Answer String}
    (done : resolveWriteTarget storage around createOnly replace (mounted path) s = .ok answer) :
    SameFiles s answer.2 ∧
      ∃ target : Path, (∀ name ∈ target, Kept name) ∧ answer.1.data = mounted target := by
  unfold resolveWriteTarget at done
  split at done
  · cases done
    exact ⟨⟨fun _ => rfl, rfl⟩, path, kept, rfl⟩
  · exact resolveWorkspaceWritePath_spec mirrored kept done

theorem writeResolved_spec (mirrored : Mirrored storage s) (around : Surroundings)
    (createOnly : Bool) (contents : Bytes) {resolved : WorkspaceFileBridgeResult String}
    (kept : ∀ name ∈ path, Kept name) (data : resolved.data = mounted path) :
    SameFiles s (writeResolved storage around createOnly contents resolved s).2 ∨
      Stored storage path contents s
        (writeResolved storage around createOnly contents resolved s).2 := by
  rcases ran : execShellInSessionPod storage around.pulledAgain
    (writeCommand createOnly (mounted path) contents) s with ⟨code, after⟩
  simp only [writeResolved, data, ran]
  split
  · exact .inl ⟨fun _ => rfl, rfl⟩
  · rcases exec_write mirrored kept ran with ⟨done, stored⟩ | ⟨failed, same⟩
    · rw [if_pos done]
      exact .inr stored
    · rw [if_neg failed]
      exact .inl same

theorem workspaceFileWrite_spec (mirrored : Mirrored storage s) {ctx : WorkspaceBridgeContext}
    {around : Surroundings} {input : WriteInput} {answer : Answer WriteData}
    (done : workspaceFileWrite storage ctx around input s = .ok answer) :
    SameFiles s answer.2 ∨ ∃ path, Stored storage path input.contents s answer.2 := by
  simp only [workspaceFileWrite, bind, Except.bind] at done
  cases accepted : assertAllowedMountPrefix input.path with
  | error error => rw [accepted] at done; cases done
  | ok requested =>
    obtain ⟨asked, kept, is_asked⟩ := mounted_of_accepted accepted
    rw [accepted] at done
    dsimp only at done
    rw [is_asked] at done
    split at done
    · cases done; exact .inl ⟨fun _ => rfl, rfl⟩
    · split at done
      · cases done; exact .inl ⟨fun _ => rfl, rfl⟩
      · split at done
        · cases done
        next resolvedTarget target =>
          obtain ⟨same, path, kept, data⟩ := resolveWriteTarget_spec mirrored kept target
          have written := writeResolved_spec (mirrored.same same) around
            (input.mode == some .createOnly) input.contents kept data
          cases done
          rcases written with unchanged | stored
          · exact .inl (same.trans unchanged)
          · exact .inr ⟨path, stored.after same⟩

/-! ## Copying -/

/-- On the way to a path nothing at or below it is made. -/
theorem node?_made (pod : Pod) {target : Path} (under : target <+: other) :
    (pod.mkdirs [] target.dropLast).2.node? other = pod.node? other := by
  by_cases is_root : target = []
  · rw [is_root]
    rfl
  · refine pod.node?_mkdirs fun above => ?_
    have shorter := (under.trans above).length_le
    have longer := List.length_pos_of_ne_nil is_root
    simp only [List.nil_append, List.length_dropLast] at shorter
    omega

theorem no_file_above {pod : Pod} {target : Path} (made : (pod.mkdirs [] target.dropLast).1)
    {n : Nat} (above : n < target.length) : pod.file? (target.take n) = none := by
  have joins : target.take n ++ target.dropLast.drop n = target.dropLast := by
    have cut : target.dropLast.take n = target.take n := by
      rw [List.dropLast_eq_take, List.take_take, Nat.min_eq_left (by omega)]
    rw [← cut, List.take_append_drop]
  have directory : (pod.mkdirs [] target.dropLast).2.node?
      (target.take n ++ target.dropLast.drop n) = some .directory := by
    rw [joins]
    exact FileTree.directory_mkdirs pod.root made
  have node : (pod.mkdirs [] target.dropLast).2.node? (target.take n) = some .directory := by
    by_cases last : target.dropLast.drop n = []
    · rw [last, List.append_nil] at directory
      exact directory
    · exact FileTree.directory_of_above directory last
  rw [← pod.file?_mkdirs [] target.dropLast, FileTree.file?_of_directory node]

/-- A copy that succeeds writes what is at the source, where no directory is. -/
theorem copyCommand_cases {source target : Path} (source_kept : ∀ name ∈ source, Kept name)
    (target_kept : ∀ name ∈ target, Kept name) {pod after : Pod} {code : Nat}
    (ran : copyCommand (mounted source) (mounted target) pod = (code, after)) :
    (code ≠ 0 ∧ ∀ other, after.file? other = pod.file? other) ∨
      code = 0 ∧ ∃ content, pod.file? source = some content ∧
        pod.node? (pod.copyPath source target) ≠ some .directory ∧
        (∀ n < target.length, pod.file? (target.take n) = none) ∧
        ∀ other, after.file? other =
          if other = pod.copyPath source target then some content else pod.file? other := by
  have files := pod.file?_mkdirs [] target.dropLast
  simp only [copyCommand, volumePath_mounted source_kept, volumePath_mounted target_kept,
    volumePath_parentDir target_kept, Command.andThen, Command.mkdirs] at ran
  by_cases made : (pod.mkdirs [] target.dropLast).1
  · simp only [made, if_true, Command.cp] at ran
    split at ran
    next copied =>
      cases ran
      obtain ⟨content, found, -, placed⟩ := FileTree.copyFile_eq_some copied
      have same_path : (pod.mkdirs [] target.dropLast).2.copyPath source target =
          pod.copyPath source target := by
        simp only [FileTree.copyPath, node?_made pod (List.prefix_refl target)]
      have under : target <+: pod.copyPath source target := by
        unfold FileTree.copyPath
        split
        · exact List.prefix_append ..
        · exact List.prefix_refl target
      rw [same_path] at placed
      have free := (FileTree.admits_of_place placed).2.2
      rw [node?_made pod under] at free
      refine .inr ⟨rfl, content, files source ▸ found, free, fun n => no_file_above made,
        fun other => ?_⟩
      rw [FileTree.file?_place placed, files]
    next =>
      cases ran
      exact .inl ⟨Nat.one_ne_zero, files⟩
  · simp only [made, Bool.false_eq_true, if_false, Nat.one_ne_zero] at ran
    cases ran
    exact .inl ⟨Nat.one_ne_zero, files⟩

/-- What the source holds is what is read back, or the copy changes nothing. -/
def CopyMirrored (storage : Storage) (around : Surroundings) (source target : Path) (s : State) :
    Prop :=
  match s.pod.file? source with
  | none => True
  | some content =>
    if s.pod.node? target = some .directory then
      s.pod.node? (s.pod.copyPath source target) = some .directory ∨
        s.pod.file? (s.pod.copyPath source target) = some content
    else
      -- what is pulled again is the file that was there before
      (∀ n < target.length, s.pod.file? (target.take n) = none) →
        (if around.pulledAgain (keyOf storage target) then (s.pod.file? target).getD content
          else content).length ≤ maxReadBytes

/-- The file that was copied, once more under what is stored for it. -/
theorem Mirrored.file?_pull_written (mirrored : Mirrored storage s) {pod : Pod} (ne : path ≠ [])
    (kept : ∀ name ∈ path, Kept name)
    (written : ∀ other, pod.file? other = if other = path then some content else s.pod.file? other)
    (pulled : String → Bool) (other : Path) :
    (pull storage pulled ⟨pod, s.bucket⟩).file? other =
      if other = path then
        some (if pulled (keyOf storage path) then (s.pod.file? path).getD content else content)
      else s.pod.file? other := by
  have plain : PlainNames pod := by
    intro file found
    rw [written] at found
    split at found
    next same => exact same ▸ kept
    next => exact mirrored.plain file found
  have ofFiles : OfFiles storage pod s.bucket.rows := by
    intro row mem starts
    obtain ⟨file, found, file_kept, key⟩ := mirrored.ofFiles row mem starts
    refine ⟨file, ?_, file_kept, key⟩
    rw [written]
    split
    · rfl
    · exact found
  have nodes := @node?_hydrate _ pulled _ s.bucket.unique _ plain ofFiles other
  have stored : ∀ file : Path, file ≠ [] → (∀ name ∈ file, Kept name) →
      s.bucket.rows.lookup (keyOf storage file) = s.pod.file? file :=
    fun file => mirrored.get?_keyOf
  by_cases same : other = path
  · subst same
    have found : pod.file? other = some content := by rw [written, if_pos rfl]
    rw [found, stored other ne kept, FileTree.file?_eq_some.mp found] at nodes
    rw [if_pos rfl]
    refine FileTree.file?_eq_some.mpr (nodes.trans ?_)
    by_cases again : pulled (keyOf storage other)
    · rw [if_pos ⟨rfl, again⟩, if_pos again]
      cases s.pod.file? other <;> rfl
    · rw [if_neg (by simpa using again), if_neg again]
  · have unchanged : pod.file? other = s.pod.file? other := by rw [written, if_neg same]
    rw [if_neg same, ← unchanged]
    refine FileTree.file?_congr (nodes.trans ?_)
    split
    next applies =>
      rw [stored other (ne_nil_of_file applies.1) (plain other applies.1), ← unchanged]
      obtain ⟨bytes, found⟩ := Option.isSome_iff_exists.mp applies.1
      rw [found, FileTree.file?_eq_some.mp found]
      rfl
    next => rfl

theorem workspaceFileRead_spec {pulled : String → Bool} {target : Path}
    (kept : ∀ name ∈ target, Kept name) {answer : Answer (Option ReadResult)}
    (done : workspaceFileRead storage pulled (mounted target) none s = .ok answer) :
    answer.2 = { s with pod := pull storage pulled s } ∧
      answer.1.data.map (·.bytes) =
        ((pull storage pulled s).file? target).map (List.take maxReadBytes) := by
  simp only [workspaceFileRead, bind, Except.bind] at done
  cases accepted : assertAllowedMountPrefix (mounted target) with
  | error error => rw [accepted] at done; cases done
  | ok resolved =>
    rw [accepted] at done
    dsimp only at done
    rw [accepted_mounted kept accepted, volumePath_mounted kept] at done
    split at done
    next none => cases done; exact ⟨rfl, by rw [none]; rfl⟩
    next found =>
      cases done
      exact ⟨rfl, by rw [found, Option.getD_none, Nat.min_self]; rfl⟩

/-- What a copy comes to, with what is read back and stored. -/
theorem storeRead_spec (storage : Storage) {source target : String} {read : Option ReadResult}
    {content : Option Bytes} (bytes : read.map (·.bytes) = content) (s : State) :
    (storeRead storage source target read s).2 =
      match content with
      | none => s
      | some content =>
        { s with bucket := saveObject s.bucket (storage.objectKey target) content } := by
  subst bytes
  cases read <;> rfl

/-- The copy of a file that is read back as it was written. -/
theorem stored_of_read (mirrored : Mirrored storage s) {after : State} (ne : path ≠ [])
    (kept : ∀ name ∈ path, Kept name) (bucket : after.bucket = s.bucket)
    (written : ∀ other, after.pod.file? other =
      if other = path then some content else s.pod.file? other)
    {pulled : String → Bool} {source : String} {answer : Answer (Option ReadResult)}
    (fits : (if pulled (keyOf storage path) then (s.pod.file? path).getD content
      else content).length ≤ maxReadBytes)
    (done : workspaceFileRead storage pulled (mounted path) none after = .ok answer) :
    ∃ content, Stored storage path content s
      (storeRead storage source (mounted path) answer.1.data answer.2).2 := by
  obtain ⟨is_state, bytes⟩ := workspaceFileRead_spec kept done
  have same : after = ⟨after.pod, s.bucket⟩ := by rw [← bucket]
  have files := mirrored.file?_pull_written ne kept written pulled
  rw [← same] at files
  rw [files, if_pos rfl, Option.map_some, List.take_of_length_le fits] at bytes
  rw [storeRead_spec storage bytes, is_state]
  exact ⟨_, ne, kept, files, by rw [← bucket]; rfl⟩

theorem copyResolved_spec (mirrored : Mirrored storage s) {around : Surroundings}
    {source target : Path} (source_kept : ∀ name ∈ source, Kept name)
    (target_kept : ∀ name ∈ target, Kept name)
    (met : mounted source = mounted target ∨ CopyMirrored storage around source target s)
    {answer : Answer CopyData}
    (done : copyResolved storage around (mounted source) (mounted target) s = .ok answer) :
    SameFiles s answer.2 ∨ ∃ content, Stored storage target content s answer.2 := by
  unfold copyResolved at done
  split at done
  · cases done
    exact .inl ⟨mirrored.file?_pull around.pulled, rfl⟩
  next apart =>
    have copies := met.resolve_left apart
    rcases ran : execShellInSessionPod storage around.pulled
      (copyCommand (mounted source) (mounted target)) s with ⟨code, after⟩
    obtain ⟨is_code, is_pod, is_bucket⟩ := exec_eq ran
    have files := mirrored.file?_pull around.pulled
    have same_path : (pull storage around.pulled s).copyPath source target =
        s.pod.copyPath source target := by
      simp only [FileTree.copyPath, mirrored.node?_pull]
    have outcome := copyCommand_cases source_kept target_kept (Prod.ext is_code is_pod)
    simp only [files, same_path, mirrored.node?_pull] at outcome
    simp only [ran, bind, Except.bind] at done
    rcases outcome with ⟨failed, same⟩ | ⟨succeeded, content, found, free, above, written⟩
    · rw [if_pos failed] at done
      cases done
      exact .inl ⟨same, is_bucket⟩
    · rw [if_neg (by simpa using succeeded)] at done
      cases read : workspaceFileRead storage around.pulledAgain (mounted target) none after with
      | error error => rw [read] at done; cases done
      | ok result =>
        rw [read] at done
        cases done
        simp only [CopyMirrored, found] at copies
        split at copies
        next directory =>
          have same : SameFiles s after := by
            refine ⟨fun other => ?_, is_bucket⟩
            rw [written]
            split
            next at_copy => rw [at_copy, copies.resolve_left free]
            next => rfl
          obtain ⟨is_state, bytes⟩ := workspaceFileRead_spec target_kept read
          have pulled := (mirrored.same same).file?_pull around.pulledAgain
          rw [pulled, same.pod, FileTree.file?_of_directory directory] at bytes
          rw [storeRead_spec storage bytes, is_state]
          exact .inl ⟨fun other => (pulled other).trans (same.pod other), is_bucket⟩
        next file =>
          have is_target : s.pod.copyPath source target = target := if_neg file
          rw [is_target] at written
          have ne : target ≠ [] := fun is_root => file (is_root ▸ s.pod.root)
          exact .inr (stored_of_read mirrored ne target_kept is_bucket written (copies above) read)

/-! ## Deleting -/

/-- A deletion that succeeds removes what lies at the path; one that fails removes nothing, unless
it empties the mount. -/
theorem deleteCommand_cases (kept : ∀ name ∈ path, Kept name) {recursive : Bool}
    {pod after : Pod} {code : Nat}
    (ran : deleteCommand recursive (mounted path) pod = (code, after)) :
    (code ≠ 0 ∧ (∀ other, after.file? other = pod.file? other)) ∨
      (code ≠ 0 ∧ path = [] ∧ recursive ∧ ∀ other, after.file? other = none) ∨
      code = 0 ∧ path ≠ [] ∧
        ((pod.file? path).isSome ∨ pod.node? path = some .directory ∧ recursive) ∧
        ∀ other, after.file? other = if path <+: other then none else pod.file? other := by
  simp only [deleteCommand, volumePath_mounted kept, Command.andThen,
    Command.exitUnlessExists] at ran
  by_cases missing : pod.node? path = none
  · rw [if_pos missing] at ran
    cases ran
    exact .inl ⟨by decide, fun _ => rfl⟩
  · rw [if_neg missing, if_pos rfl, Command.rm] at ran
    split at ran
    next ne =>
      split at ran
      next none => exact absurd none missing
      next content found =>
        cases ran
        have file : (pod.file? path).isSome := by rw [FileTree.file?_eq_some.mpr found]; rfl
        exact .inr (.inr ⟨rfl, ne, .inl file, pod.file?_remove ne⟩)
      next directory =>
        split at ran
        next is_recursive =>
          cases ran
          exact .inr (.inr ⟨rfl, ne, .inr ⟨directory, is_recursive⟩, pod.file?_remove ne⟩)
        next =>
          cases ran
          exact .inl ⟨Nat.one_ne_zero, fun _ => rfl⟩
    next is_root =>
      cases ran
      cases recursive
      · exact .inl ⟨Nat.one_ne_zero, fun _ => rfl⟩
      · exact .inr (.inl ⟨Nat.one_ne_zero, not_not.mp is_root, rfl, pod.file?_emptied⟩)

/-- The mount is not emptied, and no other file has a key that starts with the key of the path. -/
def DeleteMirrored (storage : Storage) (recursive : Bool) (path : Path) (s : State) : Prop :=
  if path = [] then recursive → s.pod.files = []
  else
    (s.pod.file? path).isSome ∨ (s.pod.node? path = some .directory ∧ recursive) →
      ∀ other ∈ s.pod.files, startsWith (keyOf storage other) (keyOf storage path) → path <+: other

theorem deleteResolved_spec (mirrored : Mirrored storage s) {around : Surroundings}
    {recursive : Bool} (kept : ∀ name ∈ path, Kept name)
    (met : DeleteMirrored storage recursive path s) :
    ((deleteResolved storage around recursive (mounted path) s).1.success = false ∧
        SameFiles s (deleteResolved storage around recursive (mounted path) s).2) ∨
      (Removed storage path s (deleteResolved storage around recursive (mounted path) s).2 ∧
        ∀ other ∈ s.pod.files, startsWith (keyOf storage other) (keyOf storage path) →
          path <+: other) := by
  rcases ran : execShellInSessionPod storage around.pulled
    (deleteCommand recursive (mounted path)) s with ⟨code, after⟩
  obtain ⟨is_code, is_pod, is_bucket⟩ := exec_eq ran
  have files := mirrored.file?_pull around.pulled
  have outcome := deleteCommand_cases kept (Prod.ext is_code is_pod)
  simp only [files, mirrored.node?_pull] at outcome
  simp only [deleteResolved, ran]
  rcases outcome with ⟨failed, same⟩ | ⟨failed, is_root, is_recursive, none_left⟩ |
    ⟨succeeded, ne, there, removed⟩
  · rw [if_neg failed]
    split <;> exact .inl ⟨rfl, same, is_bucket⟩
  · rw [DeleteMirrored, if_pos is_root] at met
    have same : SameFiles s after := by
      refine ⟨fun other => ?_, is_bucket⟩
      cases found : s.pod.file? other with
      | none => exact none_left other
      | some content =>
        have member := FileTree.mem_files found
        rw [met is_recursive] at member
        cases member
    rw [if_neg failed]
    split <;> exact .inl ⟨rfl, same⟩
  · rw [DeleteMirrored, if_neg ne] at met
    rw [succeeded, if_neg (by decide), if_pos rfl]
    exact .inr ⟨⟨ne, removed, by rw [is_bucket]; rfl⟩, met there⟩

end Persai.WorkspaceFiles
