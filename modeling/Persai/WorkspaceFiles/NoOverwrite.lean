import Persai.WorkspaceFiles.Calls
import Persai.WorkspaceFiles.Listing

/-!
# Writes that are not to replace a file

A write without `replace` looks for a name that is free in the directory and opens it with a
redirect that truncates. It knows the names that the listing shows: one that exists and is not
shown is taken for free, and so is the last resort, the name with the time in it.
-/

namespace Persai.WorkspaceFiles

open Segments WorkspacePaths

variable {storage : Storage} {s s' : State} {around : Surroundings}

/-! ## The search for a free name -/

def baseStem (basename : String) : List Char :=
  ((suffixMatch (splitExtension basename.toList).1).map (·.1)).getD
    (splitExtension basename.toList).1

def startIndex (basename : String) : Nat :=
  ((suffixMatch (splitExtension basename.toList).1).map (·.2 + 1)).getD 1

def candidate (basename : String) (index : Nat) : String :=
  numbered (baseStem basename) (splitExtension basename.toList).2 index

/-- The names in the order in which `resolveMacOsCollisionBasename` tries them. -/
def searchedNames (basename : String) : List String :=
  basename :: (List.range' (startIndex basename) (10000 - startIndex basename)).map
    (candidate basename)

theorem firstFree_eq_find? (existingNames : List String) (candidate : Nat → String)
    (count index : Nat) :
    firstFree existingNames candidate count index =
      ((List.range' index count).map candidate).find? (· ∉ existingNames) := by
  induction count generalizing index with
  | zero => rfl
  | succ count ih =>
    rw [firstFree, List.range'_succ, List.map_cons, List.find?_cons]
    by_cases taken : candidate index ∈ existingNames
    · simp [taken, ih]
    · simp [taken]

theorem resolveMacOsCollisionBasename_eq (basename : String) (existingNames : List String)
    (now : Nat) :
    resolveMacOsCollisionBasename basename existingNames now =
      ((searchedNames basename).find? (· ∉ existingNames)).getD (candidate basename now) := by
  rw [resolveMacOsCollisionBasename, searchedNames, List.find?_cons]
  by_cases taken : basename ∈ existingNames
  · simp only [taken, not_true_eq_false, if_false, decide_false]
    rw [← firstFree_eq_find?]
    rfl
  · simp [taken]

/-- Each name that is there and that the search comes to is known, and the last resort is not
there if it comes to that. -/
def Covered (there : String → Prop) (known : List String) (lastResort : String) :
    List String → Prop
  | [] => ¬ there lastResort
  | name :: rest =>
    (there name → name ∈ known) ∧ (name ∈ known → Covered there known lastResort rest)

instance decidableCovered (there : String → Prop) [DecidablePred there] (known : List String)
    (lastResort : String) : ∀ names, Decidable (Covered there known lastResort names)
  | [] => inferInstanceAs (Decidable (¬ there lastResort))
  | name :: rest =>
    have := decidableCovered there known lastResort rest
    inferInstanceAs (Decidable ((there name → name ∈ known) ∧
      (name ∈ known → Covered there known lastResort rest)))

theorem covered_iff {there : String → Prop} {known : List String} {lastResort : String}
    (names : List String) :
    Covered there known lastResort names ↔
      ¬ there ((names.find? (· ∉ known)).getD lastResort) := by
  induction names with
  | nil => rfl
  | cons name rest ih =>
    rw [Covered, List.find?_cons]
    by_cases taken : name ∈ known
    · simp [taken, ih]
    · simp [taken]

theorem covered_of_known {there : String → Prop} {known : List String} {lastResort : String}
    (all : ∀ name, there name → name ∈ known) (free : ¬ there lastResort) (names : List String) :
    Covered there known lastResort names := by
  induction names with
  | nil => exact free
  | cons name rest ih => exact ⟨all name, fun _ => ih⟩

/-! ## The pod that is written to -/

/-- The pod with what is pulled before the directory is listed. -/
def listedPod (storage : Storage) (around : Surroundings) (s : State) : Pod :=
  pull storage around.pulled s

/-- The pod with what is pulled before the file is written. -/
def pulledPod (storage : Storage) (around : Surroundings) (createOnly : Bool) (s : State) : Pod :=
  pull storage around.pulledAgain
    (if createOnly then s else { s with pod := listedPod storage around s })

/-- The command takes no node away. -/
def Command.Adds (command : Command) : Prop :=
  ∀ pod other, pod.node? other ≠ none → (command pod).2.node? other ≠ none

namespace Command

theorem there_place {pod after : Pod} {path other : Path} {node : FileTree.Node Bytes}
    (placed : pod.place path node = some after) (there : pod.node? other ≠ none) :
    after.node? other ≠ none := by
  rw [FileTree.node?_place placed]
  split
  · exact Option.some_ne_none _
  · exact there

theorem there_mkdirs {pod : Pod} {path rest other : Path} (there : pod.node? other ≠ none) :
    (pod.mkdirs path rest).2.node? other ≠ none := by
  induction rest generalizing pod path with
  | nil => exact there
  | cons name rest ih =>
    unfold FileTree.mkdirs
    split
    · exact ih there
    · exact there
    · split
      · exact there
      next placed => exact ih (there_place placed there)

theorem adds_mkdirs (path : Path) : (mkdirs path).Adds := fun _ _ there => there_mkdirs there

theorem adds_cat (path : Path) (stdin : Bytes) : (cat path stdin).Adds := by
  intro pod other there
  unfold cat
  split
  next placed => exact there_place placed there
  · exact there

theorem Adds.andThen {first next : Command} (adds : first.Adds) (next_adds : next.Adds) :
    (first.andThen next).Adds := by
  intro pod other there
  rw [Command.andThen]
  split
  · exact next_adds _ other (adds pod other there)
  · exact adds pod other there

end Command

/-- What is pulled takes nothing away. -/
theorem there_pull {pulled : String → Bool} {other : Path} (there : s.pod.node? other ≠ none) :
    (pull storage pulled s).node? other ≠ none := by
  unfold pull
  generalize s.bucket.rows = rows
  generalize s.pod = pod at there
  induction rows generalizing pod with
  | nil => exact there
  | cons row rows ih =>
    rw [List.foldl_cons]
    apply ih
    unfold hydrateObject
    split
    · apply Command.Adds.andThen
      · exact Command.adds_mkdirs _
      · exact Command.adds_cat _ _
      · exact there
    · exact there

theorem there_pulledPod {createOnly : Bool} {other : Path} (there : s.pod.node? other ≠ none) :
    (pulledPod storage around createOnly s).node? other ≠ none := by
  unfold pulledPod
  split
  · exact there_pull there
  · exact there_pull (there_pull there)

/-! ## The write -/

/-- The names that the write knows of the directory. -/
def knownNames (storage : Storage) (around : Surroundings) (directory : Path) (names : List String)
    (s : State) : List String :=
  if (listedPod storage around s).node? directory = some .directory then names else []

/-- Where the write goes. -/
theorem resolveWorkspaceWritePath_target {directory : Path} {name : List Char}
    (kept : ∀ other ∈ directory ++ [name], Kept other) {answer : Answer String}
    (done : resolveWorkspaceWritePath storage around (mounted (directory ++ [name])) false s =
      .ok answer) :
    answer.2 = { s with pod := listedPod storage around s } ∧
      answer.1.data = mounted (directory ++ [(resolveMacOsCollisionBasename (String.ofList name)
        (knownNames storage around directory ((listedPaths around.listing).map basename) s)
        around.now).toList]) := by
  have name_kept := kept name (by simp)
  have init_kept : ∀ other ∈ directory, Kept other := fun other mem =>
    kept other (List.mem_append_left _ mem)
  simp only [resolveWorkspaceWritePath, bind, Except.bind] at done
  cases accepted : assertAllowedMountPrefix (mounted (directory ++ [name])) with
  | error error => rw [accepted] at done; cases done
  | ok requested =>
    rw [accepted] at done
    dsimp only at done
    rw [accepted_mounted kept accepted, parentDir_mounted directory name_kept.part,
      basename_mounted directory name_kept.part] at done
    simp only [Bool.false_eq_true, if_false] at done
    simp only [workspaceFileList, bind, Except.bind] at done
    cases accepted_parent : assertAllowedMountPrefix (mounted directory) with
    | error error => rw [accepted_parent] at done; cases done
    | ok parent =>
      rw [accepted_parent] at done
      dsimp only [execShellInSessionPod] at done
      rw [accepted_mounted init_kept accepted_parent, volumePath_mounted init_kept] at done
      by_cases found : (pull storage around.pulled s).node? directory = some .directory
      · simp only [found, if_true, Nat.reduceEqDiff, if_false, pure, Except.pure] at done
        cases done
        refine ⟨rfl, ?_⟩
        rw [knownNames, listedPod, if_pos found]
        dsimp only
        split
        next same => rw [same, String.toList_ofList]
        next => exact mounted_sibling directory _
      · simp only [found, if_false, if_true, pure, Except.pure] at done
        cases done
        refine ⟨rfl, ?_⟩
        rw [knownNames, listedPod, if_neg found, resolveMacOsCollisionBasename_eq]
        simp [searchedNames]

/-- The name that the write uses. -/
def targetName (storage : Storage) (around : Surroundings) (createOnly : Bool) (directory : Path)
    (name : List Char) (s : State) : String :=
  if createOnly then String.ofList name
  else resolveMacOsCollisionBasename (String.ofList name)
    (knownNames storage around directory ((listedPaths around.listing).map basename) s) around.now

theorem kept_targetName {name : List Char} (kept : Kept name) (createOnly : Bool)
    (directory : Path) : Kept (targetName storage around createOnly directory name s).toList := by
  unfold targetName
  split
  · exact String.toList_ofList ▸ kept
  · exact kept_resolved (String.toList_ofList ▸ kept) _ _

theorem resolveWriteTarget_target {directory : Path} {name : List Char} {createOnly : Bool}
    (kept : ∀ other ∈ directory ++ [name], Kept other) {answer : Answer String}
    (done : resolveWriteTarget storage around createOnly false (mounted (directory ++ [name])) s =
      .ok answer) :
    pull storage around.pulledAgain answer.2 = pulledPod storage around createOnly s ∧
      answer.1.data = mounted (directory ++
        [(targetName storage around createOnly directory name s).toList]) := by
  cases createOnly with
  | true =>
    cases done
    exact ⟨rfl, by simp [targetName]⟩
  | false =>
    obtain ⟨state, data⟩ := resolveWorkspaceWritePath_target kept done
    refine ⟨?_, data⟩
    rw [state]
    rfl

/-- A path above the mount is not written to. -/
theorem not_resolved_root {createOnly : Bool} {answer : Answer String} {contents : Bytes}
    (done : resolveWriteTarget storage around createOnly false (mounted []) s = .ok answer)
    (pod : Pod) : (writeCommand createOnly answer.1.data contents pod).1 ≠ 0 := by
  cases createOnly with
  | true =>
    cases done
    obtain ⟨-, above, -⟩ | ⟨failed, -⟩ := writeCommand_cases true (mounted []) contents pod
    · exact absurd (volumePath_mounted (by simp)) above
    · exact failed
  | false =>
    exfalso
    simp only [resolveWriteTarget, resolveWorkspaceWritePath, bind, Except.bind, Bool.false_eq_true,
      if_false] at done
    cases accepted : assertAllowedMountPrefix (mounted []) with
    | error error => rw [accepted] at done; cases done
    | ok requested =>
      have root : parentDir (mounted []) = "/" := by decide
      rw [accepted] at done
      dsimp only at done
      rw [accepted_mounted (by simp) accepted, root] at done
      cases listed : workspaceFileList storage around "/" s with
      | error error => rw [listed] at done; cases done
      | ok parentList =>
        obtain ⟨r, parent⟩ := accepted_of_listed listed
        exact not_accepted_root r parent

theorem writeResolved_success {createOnly : Bool} {contents : Bytes}
    {resolved : WorkspaceFileBridgeResult String} {answer : Answer WriteData}
    (done : writeResolved storage around createOnly contents resolved s = answer)
    (success : answer.1.success = true) :
    answer.1.data.resolvedPath = resolved.data ∧
      writeCommand createOnly resolved.data contents (pull storage around.pulledAgain s) =
        (0, answer.2.pod) := by
  subst done
  rcases ran : execShellInSessionPod storage around.pulledAgain
    (writeCommand createOnly resolved.data contents) s with ⟨code, after⟩
  obtain ⟨is_code, is_pod, -⟩ := exec_eq ran
  simp only [writeResolved, ran] at success ⊢
  split at success
  · cases success
  next resolves =>
    rw [if_neg resolves]
    by_cases exit : code = 0
    · rw [if_pos exit]
      exact ⟨rfl, Prod.ext (is_code.trans exit) is_pod⟩
    · rw [if_neg exit] at success
      cases success

/-- A write that succeeds has put its contents at the target, in the pod as it was pulled. -/
theorem workspaceFileWrite_written {ctx : WorkspaceBridgeContext} {input : WriteInput}
    {result : WorkspaceFileBridgeResult WriteData} {requested : ResolvedWorkspacePath}
    (keeps : input.replace = false ∧ input.mode ≠ some .overwrite)
    (asked : assertAllowedMountPrefix input.path = .ok requested)
    (done : workspaceFileWrite storage ctx around input s = .ok (result, s'))
    (success : result.success = true) :
    ∃ directory name, (∀ other ∈ directory ++ [name], Kept other) ∧
      requested.absolutePath = mounted (directory ++ [name]) ∧
      let createOnly := input.mode == some .createOnly
      let target := mounted (directory ++
        [(targetName storage around createOnly directory name s).toList])
      result.data.resolvedPath = target ∧
        writeCommand createOnly target input.contents (pulledPod storage around createOnly s) =
          (0, s'.pod) := by
  have no_overwrite : (input.mode == some WriteMode.overwrite) = false := by
    simpa using keeps.2
  simp only [workspaceFileWrite, bind, Except.bind] at done
  obtain ⟨path, kept, is_asked⟩ := mounted_of_accepted asked
  rw [asked] at done
  dsimp only at done
  rw [is_asked, keeps.1, no_overwrite, Bool.or_false] at done
  split at done
  · cases done
    cases success
  · split at done
    · cases done
      cases success
    · split at done
      · cases done
      next resolvedTarget target =>
        obtain ⟨resolved, s₁⟩ := resolvedTarget
        dsimp only at done
        have ran := writeResolved_success (Except.ok.inj done) success
        induction path using List.reverseRecOn with
        | nil => exact absurd (congrArg Prod.fst ran.2) (not_resolved_root target _)
        | append_singleton directory name =>
          obtain ⟨pod, data⟩ := resolveWriteTarget_target kept target
          dsimp only at pod data
          rw [data, pod] at ran
          exact ⟨directory, name, kept, is_asked, ran.1, ran.2⟩

/-! ## What is overwritten -/

/-- Every file of the directory is as it was, and the contents are under a name that was not there:
before the call, and with what the bridge pulled into the directory since. -/
structure NothingOverwritten (directory : Path) (contents : Bytes) (resolvedPath : String)
    (before pulled after : Pod) : Prop where
  kept : ∀ pod ∈ [before, pulled], ∀ name content,
    pod.file? (directory ++ [name]) = some content →
      after.file? (directory ++ [name]) = some content
  fresh : ∃ name, volumePath resolvedPath = directory ++ [name] ∧
    before.node? (directory ++ [name]) = none ∧ pulled.node? (directory ++ [name]) = none ∧
      after.file? (directory ++ [name]) = some contents

/-- What is pulled changes no file that the directory has. -/
def PullsKeep (directory : Path) (before pulled : Pod) : Prop :=
  ∀ name content, before.file? (directory ++ [name]) = some content →
    pulled.file? (directory ++ [name]) = some content

/-- The search finds out about each existing name that it comes to. -/
def SearchCovers (storage : Storage) (around : Surroundings) (directory : Path) (name : String)
    (listed : List String) (s : State) : Prop :=
  Covered
    (fun other => (pulledPod storage around false s).node? (directory ++ [other.toList]) ≠ none)
    (knownNames storage around directory listed s) (candidate name around.now) (searchedNames name)

theorem searchCovers_iff {directory : Path} {name : List Char} {listed : List String}
    (listing : (listedPod storage around s).node? directory = some .directory →
      (listedPaths around.listing).map basename = listed) :
    SearchCovers storage around directory (String.ofList name) listed s ↔
      (pulledPod storage around false s).node? (directory ++
        [(targetName storage around false directory name s).toList]) = none := by
  have known : knownNames storage around directory listed s =
      knownNames storage around directory ((listedPaths around.listing).map basename) s := by
    unfold knownNames
    split
    next found => exact (listing found).symm
    · rfl
  rw [SearchCovers, covered_iff, ← resolveMacOsCollisionBasename_eq, not_not, known]
  rfl

/-- What had to be new was not there. -/
theorem free_of_createOnly {path : String} {contents : Bytes} {pod after : Pod}
    (wrote : writeCommand true path contents pod = (0, after)) :
    pod.node? (volumePath path) = none := by
  by_contra there
  have made : (Command.mkdirs (volumePath (parentDir path)) pod).2.node? (volumePath path) ≠ none :=
    Command.adds_mkdirs _ pod _ there
  have exit := congrArg Prod.fst wrote
  simp only [writeCommand, Command.andThen, Command.exitIfExists, if_true, if_neg made] at exit
  split at exit
  · cases exit
  next not_made => exact not_made exit

/-- In a directory of plain names, all of which are listed and stay, only the last resort can be
taken. -/
theorem searchCovers_of_plain {directory : Path} {name : String} {entries : List FindEntry}
    (below : PlainText (mounted directory).toList)
    (plain : ∀ entry ∈ entries, PlainText entry.name ∧ IsPart '/' entry.name)
    (few : entries.length ≤ defaultMaxEntries)
    (found : (listedPod storage around s).node? directory = some .directory)
    (lists : ∀ other, (listedPod storage around s).node? (directory ++ [other]) ≠ none ↔
      other ∈ entries.map (·.name))
    (settled : ∀ other, (pulledPod storage around false s).node? (directory ++ [other]) =
      (listedPod storage around s).node? (directory ++ [other]))
    (free : (pulledPod storage around false s).node?
      (directory ++ [(candidate name around.now).toList]) = none) :
    SearchCovers storage around directory name (shownNames (mounted directory) entries) s := by
  refine covered_of_known (fun other there => ?_) (by simpa using free) _
  rw [settled, lists] at there
  rw [knownNames, if_pos found, shownNames_of_plain below plain, List.take_of_length_le few]
  obtain ⟨entry, mem, same⟩ := List.mem_map.mp there
  exact List.mem_map.mpr ⟨entry, mem, by rw [same, String.ofList_toList]⟩

/-- After a write to a path, in terms of what was there. -/
theorem nothingOverwritten_iff {directory : Path} {target : List Char} {contents : Bytes}
    {resolvedPath : String} {before pulled after : Pod}
    (resolved : volumePath resolvedPath = directory ++ [target])
    (adds : ∀ other, before.node? other ≠ none → pulled.node? other ≠ none)
    (files : ∀ other, after.file? other =
      if other = directory ++ [target] then some contents else pulled.file? other) :
    NothingOverwritten directory contents resolvedPath before pulled after ↔
      PullsKeep directory before pulled ∧ pulled.node? (directory ++ [target]) = none := by
  have apart {pod : Pod} {name : List Char} {content : Bytes}
      (found : pod.file? (directory ++ [name]) = some content)
      (free : pod.node? (directory ++ [target]) = none) :
      directory ++ [name] ≠ directory ++ [target] := by
    intro same
    rw [same, FileTree.file?_eq_some, free] at found
    cases found
  constructor
  · rintro ⟨kept, name, path, free, pulled_free, -⟩
    rw [resolved] at path
    rw [← path] at free pulled_free
    refine ⟨fun name content found => ?_, pulled_free⟩
    have still := kept before (by simp) name content found
    rwa [files, if_neg (apart found free)] at still
  · rintro ⟨keep, free⟩
    have before_free : before.node? (directory ++ [target]) = none := by
      by_contra there
      exact adds _ there free
    refine ⟨fun pod member name content found => ?_, target, resolved, before_free, free, ?_⟩
    · have pulled_found : pulled.file? (directory ++ [name]) = some content := by
        simp only [List.mem_cons, List.not_mem_nil, or_false] at member
        rcases member with rfl | rfl
        · exact keep name content found
        · exact found
      rw [files, if_neg (apart pulled_found free)]
      exact pulled_found
    · rw [files, if_pos rfl]

/-- A write without `replace` overwrites nothing just when what is pulled changes no file of the
directory and, unless the file has to be new, the search covers the directory. -/
theorem write_overwrites_nothing_iff {ctx : WorkspaceBridgeContext} {input : WriteInput}
    {result : WorkspaceFileBridgeResult WriteData} {requested : ResolvedWorkspacePath}
    {entries : List FindEntry}
    (keeps : input.replace = false ∧ input.mode ≠ some .overwrite)
    (asked : assertAllowedMountPrefix input.path = .ok requested)
    (lists : (listedPod storage around s).node? (volumePath (parentDir requested.absolutePath)) =
        some .directory →
      Lists (listedPod storage around s) (volumePath (parentDir requested.absolutePath))
        (parentDir requested.absolutePath) entries around.listing)
    (done : workspaceFileWrite storage ctx around input s = .ok (result, s'))
    (success : result.success = true) :
    NothingOverwritten (volumePath (parentDir requested.absolutePath)) input.contents
        result.data.resolvedPath s.pod
        (pulledPod storage around (input.mode == some .createOnly) s) s'.pod ↔
      PullsKeep (volumePath (parentDir requested.absolutePath)) s.pod
          (pulledPod storage around (input.mode == some .createOnly) s) ∧
        (input.mode ≠ some .createOnly →
          SearchCovers storage around (volumePath (parentDir requested.absolutePath))
            (basename requested.absolutePath)
            (shownNames (parentDir requested.absolutePath) entries) s) := by
  obtain ⟨directory, name, kept, is_asked, resolved, wrote⟩ :=
    workspaceFileWrite_written keeps asked done success
  have name_kept := kept name (by simp)
  have init_kept : ∀ other ∈ directory, Kept other := fun other mem =>
    kept other (List.mem_append_left _ mem)
  rw [is_asked, parentDir_mounted directory name_kept.part] at lists ⊢
  rw [basename_mounted directory name_kept.part]
  rw [volumePath_mounted init_kept] at lists ⊢
  generalize create : (input.mode == some .createOnly) = createOnly at *
  have target_path : volumePath (mounted (directory ++
      [(targetName storage around createOnly directory name s).toList])) =
      directory ++ [(targetName storage around createOnly directory name s).toList] := by
    refine volumePath_mounted fun other mem => ?_
    obtain init | last := List.mem_append.mp mem
    · exact init_kept other init
    · rw [List.mem_singleton.mp last]
      exact kept_targetName name_kept createOnly directory
  obtain ⟨-, -, files⟩ | ⟨failed, -⟩ := writeCommand_cases createOnly (mounted (directory ++
    [(targetName storage around createOnly directory name s).toList])) input.contents
    (pulledPod storage around createOnly s)
  · rw [wrote, target_path] at files
    rw [nothingOverwritten_iff (resolved ▸ target_path) (fun _ => there_pulledPod) files]
    refine and_congr_right fun _ => ?_
    cases createOnly with
    | true =>
      have free := free_of_createOnly wrote
      rw [target_path] at free
      exact iff_of_true free fun other => absurd (beq_iff_eq.mp create) other
    | false =>
      have asks : input.mode ≠ some .createOnly := fun same => by simp [same] at create
      have listing (found : (listedPod storage around s).node? directory = some .directory) :
          (listedPaths around.listing).map basename = shownNames (mounted directory) entries := by
        rw [(lists found).prints]
        rfl
      rw [← searchCovers_iff listing]
      exact ⟨fun covers _ => covers, fun covers => covers asks⟩
  · exact absurd (congrArg Prod.fst wrote) failed

namespace Sample

def bucketOf : Storage := ⟨"media/", "w1"⟩

def withoutQuota : WorkspaceBridgeContext := ⟨none, none⟩

/-- `/workspace/shared` with one file. -/
def oneFile (name : String) : State :=
  ⟨(((Command.mkdirs ["shared".toList]).andThen (.cat ["shared".toList, name.toList] [1]))
    FileTree.new).2, ∅⟩

def entry (name : String) : FindEntry :=
  ⟨name.toList, 'f', 1, "1.5".toList, by decide, by simp⟩

/-- Nothing is pulled, and `find` prints the one file. -/
def listing (name : String) : Surroundings :=
  ⟨none, printed "/workspace/shared" [entry name], 0, fun _ => false, fun _ => false⟩

def input (name : String) : WriteInput := ⟨"/workspace/shared/" ++ name, [2], none, false⟩

/-- The write of a name that the directory has. -/
def outcome (name : String) : Except WorkspacePathError (Answer WriteData) :=
  workspaceFileWrite bucketOf withoutQuota (listing name) (input name) (oneFile name)

theorem lists_oneFile {name : String}
    (rows : (listedPod bucketOf (listing name) (oneFile name)).nodes.rows.map (·.1) =
      [[], ["shared".toList], ["shared".toList, name.toList]]) :
    Lists (listedPod bucketOf (listing name) (oneFile name)) ["shared".toList] "/workspace/shared"
      [entry name] (listing name).listing := by
  refine ⟨fun other => ?_, rfl⟩
  rw [FileTree.node?, ne_eq, KeyedTable.get?_eq_none_iff, rows]
  simp [entry]

end Sample

/-- Beside `a.txt` the contents go to `a (1).txt`. -/
theorem write_beside_a_file :
    ∃ result s', Sample.outcome "a.txt" = .ok (result, s') ∧
      result.data.resolvedPath = "/workspace/shared/a (1).txt" ∧
      NothingOverwritten ["shared".toList] [2] result.data.resolvedPath (Sample.oneFile "a.txt").pod
        (pulledPod Sample.bucketOf (Sample.listing "a.txt") false (Sample.oneFile "a.txt"))
        s'.pod := by
  obtain ⟨result, s', done, success, path⟩ :
      ∃ result s', Sample.outcome "a.txt" = .ok (result, s') ∧
      result.success = true ∧ result.data.resolvedPath = "/workspace/shared/a (1).txt" :=
    ⟨_, _, rfl, by decide +kernel, by decide +kernel⟩
  refine ⟨result, s', done, path, ?_⟩
  have asked : assertAllowedMountPrefix (Sample.input "a.txt").path =
      .ok ⟨"/workspace/shared/a.txt", "shared/a.txt"⟩ := by decide +kernel
  have parent : parentDir "/workspace/shared/a.txt" = "/workspace/shared" := by decide +kernel
  have directory : volumePath "/workspace/shared" = ["shared".toList] := by decide +kernel
  have lists : Lists (listedPod Sample.bucketOf (Sample.listing "a.txt") (Sample.oneFile "a.txt"))
      ["shared".toList] "/workspace/shared" [Sample.entry "a.txt"]
        (Sample.listing "a.txt").listing :=
    Sample.lists_oneFile (by decide +kernel)
  have exact_condition := write_overwrites_nothing_iff ⟨rfl, by decide⟩ asked
    (fun _ => by rw [parent, directory]; exact lists) done success
  rw [parent, directory] at exact_condition
  refine exact_condition.mpr ⟨fun name content found => found, fun _ => ?_⟩
  unfold SearchCovers
  decide +kernel

/-- The claim fails for a name with a tab in it, which the listing does not show. -/
theorem tabbed_name_overwritten :
    ¬ ∀ (storage : Storage) (s s' : State) (around : Surroundings) (ctx : WorkspaceBridgeContext)
        (input : WriteInput) (result : WorkspaceFileBridgeResult WriteData)
        (requested : ResolvedWorkspacePath) (entries : List FindEntry),
      input.replace = false ∧ input.mode ≠ some .overwrite →
      assertAllowedMountPrefix input.path = .ok requested →
      Lists (listedPod storage around s) (volumePath (parentDir requested.absolutePath))
        (parentDir requested.absolutePath) entries around.listing →
      pulledPod storage around (input.mode == some .createOnly) s = s.pod →
      workspaceFileWrite storage ctx around input s = .ok (result, s') → result.success = true →
      NothingOverwritten (volumePath (parentDir requested.absolutePath)) input.contents
        result.data.resolvedPath s.pod
        (pulledPod storage around (input.mode == some .createOnly) s) s'.pod := by
  intro claimed
  obtain ⟨result, s', done, success, written⟩ : ∃ result s',
      Sample.outcome "a\tb" = .ok (result, s') ∧ result.success = true ∧
        s'.pod.file? ["shared".toList, "a\tb".toList] = some [2] :=
    ⟨_, _, rfl, by decide +kernel, by decide +kernel⟩
  have asked : assertAllowedMountPrefix (Sample.input "a\tb").path =
      .ok ⟨"/workspace/shared/a\tb", "shared/a\tb"⟩ := by decide +kernel
  have parent : parentDir "/workspace/shared/a\tb" = "/workspace/shared" := by decide +kernel
  have directory : volumePath "/workspace/shared" = ["shared".toList] := by decide +kernel
  have holds := claimed Sample.bucketOf (Sample.oneFile "a\tb") s' (Sample.listing "a\tb")
    Sample.withoutQuota (Sample.input "a\tb") result _ [Sample.entry "a\tb"]
    ⟨rfl, by decide⟩ asked
    (by rw [parent, directory]; exact Sample.lists_oneFile (by decide +kernel)) rfl done success
  rw [parent, directory] at holds
  have before : (Sample.oneFile "a\tb").pod.file? ["shared".toList, "a\tb".toList] = some [1] := by
    decide +kernel
  have kept := holds.kept _ List.mem_cons_self "a\tb".toList [1] before
  exact absurd (written.symm.trans kept) (by decide)

end Persai.WorkspaceFiles
