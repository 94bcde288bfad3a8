import Mathlib.Data.List.Basic

/-!
# Directory trees

A tree of named entries, and a walk from its root that removes each directory its caller drops and
goes on into every other one.

* `Holds`: the file at a path;
* `holds_prune`: a file is left exactly if no directory on its path is dropped.
-/

inductive DirectoryTree (ν β : Type)
  | file (content : β)
  | directory (entries : List (ν × DirectoryTree ν β))

namespace DirectoryTree

variable {ν β : Type}

def isDirectory : DirectoryTree ν β → Bool
  | .file _ => false
  | .directory _ => true

mutual

/-- The tree at `path` without the directories below it that are dropped. -/
def prune (drop : List ν → Bool) (path : List ν) : DirectoryTree ν β → DirectoryTree ν β
  | .file content => .file content
  | .directory entries => .directory (pruneEntries drop path entries)

def pruneEntries (drop : List ν → Bool) (path : List ν) :
    List (ν × DirectoryTree ν β) → List (ν × DirectoryTree ν β)
  | [] => []
  | (name, t) :: entries =>
    if t.isDirectory && drop (path ++ [name]) then pruneEntries drop path entries
    else (name, prune drop (path ++ [name]) t) :: pruneEntries drop path entries

end

/-- There is a file with that content at the path. -/
inductive Holds : DirectoryTree ν β → List ν → β → Prop
  | file (content : β) : Holds (.file content) [] content
  | entry {entries : List (ν × DirectoryTree ν β)} {name : ν} {t : DirectoryTree ν β}
      {path : List ν} {content : β} (member : (name, t) ∈ entries) (inside : Holds t path content) :
      Holds (.directory entries) (name :: path) content

/-- The directories on the path of a file below `path` are not dropped. -/
def Spares (drop : List ν → Bool) (path below : List ν) : Prop :=
  ∀ dirs name rest, below = dirs ++ name :: rest → dirs ≠ [] → ¬ drop (path ++ dirs)

variable {drop : List ν → Bool} {path : List ν} {content : β}

theorem mem_pruneEntries {entries : List (ν × DirectoryTree ν β)} {name : ν}
    {t' : DirectoryTree ν β} :
    (name, t') ∈ pruneEntries drop path entries ↔
      ∃ t, (name, t) ∈ entries ∧ ¬ (t.isDirectory ∧ drop (path ++ [name])) ∧
        t' = prune drop (path ++ [name]) t := by
  induction entries with
  | nil => simp [pruneEntries]
  | cons entry entries ih =>
    obtain ⟨first, t⟩ := entry
    rw [pruneEntries]
    simp only [List.mem_cons, or_and_right, exists_or, ← ih]
    split
    next dropped =>
      rw [Bool.and_eq_true] at dropped
      constructor
      · exact .inr
      · rintro (⟨u, same, spared, -⟩ | member)
        · cases same
          exact absurd dropped spared
        · exact member
    next kept =>
      rw [Bool.and_eq_true] at kept
      rw [List.mem_cons]
      refine or_congr_left ⟨fun same => ?_, fun ⟨u, same, _, pruned⟩ => ?_⟩
      · cases same
        exact ⟨t, rfl, kept, rfl⟩
      · cases same
        rw [pruned]

@[simp] theorem holds_file {c : β} {below : List ν} :
    Holds (.file c : DirectoryTree ν β) below content ↔ below = [] ∧ content = c := by
  constructor
  · intro holds
    cases holds
    exact ⟨rfl, rfl⟩
  · rintro ⟨rfl, rfl⟩
    exact .file _

@[simp] theorem holds_directory {entries : List (ν × DirectoryTree ν β)} {name : ν}
    {below : List ν} :
    Holds (.directory entries) (name :: below) content ↔
      ∃ t, (name, t) ∈ entries ∧ Holds t below content := by
  constructor
  · intro holds
    cases holds with
    | entry member inside => exact ⟨_, member, inside⟩
  · rintro ⟨t, member, inside⟩
    exact .entry member inside

theorem holds_directory_nil {entries : List (ν × DirectoryTree ν β)} :
    ¬ Holds (.directory entries) [] content := by
  rintro ⟨⟩

/-- What has a path below it is a directory. -/
theorem Holds.isDirectory {t : DirectoryTree ν β} {below : List ν} (holds : Holds t below content) :
    t.isDirectory ↔ below ≠ [] := by
  cases holds <;> simp [DirectoryTree.isDirectory]

@[simp] theorem spares_nil : Spares drop path [] := by
  intro dirs name rest whole
  simp at whole

theorem spares_cons {name : ν} {below : List ν} :
    Spares drop path (name :: below) ↔
      (below ≠ [] → ¬ drop (path ++ [name])) ∧ Spares drop (path ++ [name]) below := by
  constructor
  · intro spares
    constructor
    · intro ne
      obtain ⟨next, rest, rfl⟩ := List.exists_cons_of_ne_nil ne
      exact spares [name] next rest rfl (List.cons_ne_nil _ _)
    · rintro dirs next rest rfl ne
      have := spares (name :: dirs) next rest rfl (List.cons_ne_nil _ _)
      rwa [List.append_cons] at this
  · rintro ⟨first, later⟩ dirs next rest whole ne
    cases dirs with
    | nil => exact absurd rfl ne
    | cons dir dirs =>
      obtain ⟨rfl, rfl⟩ := List.cons.inj whole
      by_cases last : dirs = []
      · subst last
        exact first (by simp)
      · have := later dirs next rest rfl last
        rwa [List.append_assoc] at this

/-- A file is left by the walk exactly if it was there and no directory on its path is dropped. -/
theorem holds_prune {t : DirectoryTree ν β} {below : List ν} :
    Holds (prune drop path t) below content ↔ Holds t below content ∧ Spares drop path below := by
  induction below generalizing path t with
  | nil => cases t <;> simp [prune, holds_directory_nil]
  | cons name below ih =>
    cases t with
    | file content => simp [prune]
    | directory entries =>
      simp only [prune, holds_directory, mem_pruneEntries, spares_cons]
      constructor
      · rintro ⟨-, ⟨t, member, spared, rfl⟩, holds⟩
        obtain ⟨inside, later⟩ := ih.mp holds
        exact ⟨⟨t, member, inside⟩,
          fun ne dropped => spared ⟨inside.isDirectory.mpr ne, dropped⟩, later⟩
      · rintro ⟨⟨t, member, inside⟩, first, later⟩
        exact ⟨_, ⟨t, member, fun ⟨isDir, dropped⟩ =>
          first (inside.isDirectory.mp isDir) dropped, rfl⟩, ih.mpr ⟨inside, later⟩⟩

end DirectoryTree
