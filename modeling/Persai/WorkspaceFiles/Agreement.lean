import Persai.Runs
import Persai.WorkspaceFiles.Calls

/-!
# The agreement of the mirror with the pod

The calls that keep the mirror, and that after runs of them the stored objects are the files of the
pod.
-/

namespace Persai.WorkspaceFiles

open Segments WorkspacePaths Runs

variable {storage : Storage} {s : State} {path other : Path}

/-- The input of a call that keeps the mirror. -/
def Undisturbed (storage : Storage) (s : State) (e : Event) : Prop :=
  match e.call with
  | .write _ _ => True
  | .copy sourcePath targetPath =>
    match assertAllowedMountPrefix sourcePath, assertAllowedMountPrefix targetPath with
    | .ok source, .ok target =>
      source.absolutePath = target.absolutePath ∨
        CopyMirrored storage e.around (volumePath source.absolutePath)
          (volumePath target.absolutePath) s
    | _, _ => True
  | .delete path recursive =>
    match assertAllowedMountPrefix path with
    | .ok resolved => DeleteMirrored storage recursive (volumePath resolved.absolutePath) s
    | .error _ => True

/-- A deletion removes the objects of the files at the path and below it, and of no other. -/
def RemovesOnly (storage : Storage) (s : State) (e : Event) : Prop :=
  match e.call with
  | .delete path _ =>
    match assertAllowedMountPrefix path with
    | .ok resolved => ∀ other content, s.pod.file? other = some content →
        (step storage s e).bucket.get? (keyOf storage other) =
          if volumePath resolved.absolutePath <+: other then none else some content
    | .error _ => True
  | _ => True

/-- After the call, if it reports success, the mirror agrees with the pod. -/
def AgreesAfter (storage : Storage) (s : State) (e : Event) : Prop :=
  (e.outcome storage s).1 → Agrees storage (step storage s e) ∧ RemovesOnly storage s e

/-- What a call comes to that meets the condition. -/
theorem outcome_cases (mirrored : Mirrored storage s) (e : Event) (met : Undisturbed storage s e) :
    SameFiles s (step storage s e) ∨
      (∃ path content, Stored storage path content s (step storage s e)) ∨
      ∃ path, Removed storage path s (step storage s e) ∧
        ∀ other ∈ s.pod.files, startsWith (keyOf storage other) (keyOf storage path) →
          path <+: other := by
  have unchanged : SameFiles s s := ⟨fun _ => rfl, rfl⟩
  cases called : e.call with
  | write ctx input =>
    simp only [step, Event.outcome, called]
    cases done : workspaceFileWrite storage ctx e.around input s with
    | error error => exact .inl unchanged
    | ok answer =>
      rcases workspaceFileWrite_spec mirrored done with same | ⟨path, stored⟩
      · exact .inl same
      · exact .inr (.inl ⟨path, _, stored⟩)
  | copy sourcePath targetPath =>
    simp only [step, Event.outcome, called, workspaceFileCopy, bind, Except.bind]
    simp only [Undisturbed, called] at met
    cases asked : assertAllowedMountPrefix sourcePath with
    | error error => exact .inl unchanged
    | ok source =>
      cases wanted : assertAllowedMountPrefix targetPath with
      | error error => exact .inl unchanged
      | ok target =>
        obtain ⟨source_path, source_kept, is_source⟩ := mounted_of_accepted asked
        obtain ⟨target_path, target_kept, is_target⟩ := mounted_of_accepted wanted
        simp only [asked, wanted, is_source, is_target, volumePath_mounted source_kept,
          volumePath_mounted target_kept] at met ⊢
        cases done :
            copyResolved storage e.around (mounted source_path) (mounted target_path) s with
        | error error => exact .inl unchanged
        | ok answer =>
          rcases copyResolved_spec mirrored source_kept target_kept met done with
            same | ⟨content, stored⟩
          · exact .inl same
          · exact .inr (.inl ⟨target_path, content, stored⟩)
  | delete path recursive =>
    simp only [step, Event.outcome, called, workspaceFileDelete, bind, Except.bind]
    simp only [Undisturbed, called] at met
    cases asked : assertAllowedMountPrefix path with
    | error error => exact .inl unchanged
    | ok resolved =>
      obtain ⟨path, kept, is_path⟩ := mounted_of_accepted asked
      simp only [asked, is_path, volumePath_mounted kept] at met ⊢
      rcases deleteResolved_spec mirrored kept met with ⟨-, same⟩ | removed
      · exact .inl same
      · exact .inr (.inr ⟨path, removed⟩)

theorem mirrored_step (s : State) (e : Event) (mirrored : Mirrored storage s)
    (met : Undisturbed storage s e) : Mirrored storage (step storage s e) := by
  rcases outcome_cases mirrored e met with same | ⟨path, content, stored⟩ |
    ⟨path, removed, alone⟩
  · exact mirrored.same same
  · exact mirrored.stored stored
  · exact mirrored.removed removed alone

/-- What a deletion that succeeds leaves in the storage. -/
theorem removesOnly (s : State) (e : Event) (mirrored : Mirrored storage s)
    (met : Undisturbed storage s e) (succeeded : (e.outcome storage s).1) :
    RemovesOnly storage s e := by
  have after := mirrored_step s e mirrored met
  unfold RemovesOnly
  cases called : e.call with
  | write ctx input => trivial
  | copy sourcePath targetPath => trivial
  | delete path recursive =>
    dsimp only
    simp only [Event.outcome, called, workspaceFileDelete, bind, Except.bind] at succeeded
    simp only [Undisturbed, called] at met
    cases asked : assertAllowedMountPrefix path with
    | error error => trivial
    | ok resolved =>
      obtain ⟨path, kept, is_path⟩ := mounted_of_accepted asked
      simp only [asked, is_path, volumePath_mounted kept] at met succeeded ⊢
      intro other content found
      obtain ⟨other_ne, other_kept⟩ := mirrored.inside (by rw [found]; rfl)
      rw [after.get?_keyOf other_ne other_kept]
      rcases deleteResolved_spec mirrored kept met with ⟨failed, -⟩ | ⟨removed, -⟩
      · exact absurd (failed.symm.trans succeeded) Bool.false_ne_true
      · simp only [step, Event.outcome, called, workspaceFileDelete, bind, Except.bind, asked,
          is_path]
        rw [← found]
        exact removed.pod other

namespace Sample

def media : Storage := ⟨"media/", "w1"⟩

def empty : State := ⟨FileTree.new, ∅⟩

/-- Nothing is pulled, and no quota is set. -/
def quiet : Surroundings := ⟨none, "", 0, fun _ => false, fun _ => false⟩

def write (path : String) : Event := ⟨.write ⟨none, none⟩ ⟨path, [1, 2], none, true⟩, quiet⟩

/-- A file is written, copied and deleted. -/
def copied : List Event :=
  [write "/workspace/shared/a.txt",
    ⟨.copy "/workspace/shared/a.txt" "/workspace/shared/b.txt", quiet⟩,
    ⟨.delete "/workspace/shared/a.txt" false, quiet⟩]

/-- And deleted beside a file whose name begins with its own. -/
def beside : List Event :=
  [write "/workspace/shared/a.txt", write "/workspace/shared/a.txt.bak",
    ⟨.delete "/workspace/shared/a.txt" false, quiet⟩]

end Sample

theorem agrees_empty : Agrees Sample.media Sample.empty := by
  refine ⟨fun path content found => ?_, fun key _ there => by cases there⟩
  have node := FileTree.file?_eq_some.mp found
  have member := KeyedTable.get?_eq_some_iff.mp node
  simp [Sample.empty, FileTree.new] at member

theorem plain_empty : PlainNames Sample.empty.pod := by
  intro path found
  obtain ⟨content, found⟩ := Option.isSome_iff_exists.mp found
  have node := FileTree.file?_eq_some.mp found
  have member := KeyedTable.get?_eq_some_iff.mp node
  simp [Sample.empty, FileTree.new] at member

instance (around : Surroundings) (source target : Path) (s : State) :
    Decidable (CopyMirrored storage around source target s) := by
  unfold CopyMirrored
  split <;> infer_instance

instance (recursive : Bool) (s : State) : Decidable (DeleteMirrored storage recursive path s) := by
  unfold DeleteMirrored
  infer_instance

instance (s : State) (e : Event) : Decidable (Undisturbed storage s e) := by
  unfold Undisturbed
  split
  · infer_instance
  · split <;> infer_instance
  · split <;> infer_instance

theorem not_agrees {s : State} (path : Path)
    (gone : (s.pod.file? path).isSome ∧ s.bucket.get? (keyOf storage path) = none) :
    ¬ Agrees storage s := by
  intro agrees
  obtain ⟨content, stored⟩ := Option.isSome_iff_exists.mp gone.1
  cases gone.2.symm.trans (agrees.stored path content stored)

end Persai.WorkspaceFiles
