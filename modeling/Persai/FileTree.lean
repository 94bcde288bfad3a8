import Mathlib.Data.List.Induction
import Persai.KeyedTable

/-!
# Trees of files and directories

A tree by the paths of its nodes: the root is a directory, and so is what a node lies in.

* `place`, `mkdirs`, `copyFile`, `remove`, `emptied`: what `cat >`, `mkdir -p`, `cp -f` and `rm -rf`
  do to the tree, without the links, modes and limits of a real system;
* `file?_place`, `file?_mkdirs`, `file?_without`: the files after it.
-/

inductive FileTree.Node (β : Type)
  | directory
  | file (content : β)
  deriving DecidableEq

structure FileTree (ν β : Type) [DecidableEq ν] where
  nodes : KeyedTable (List ν) (FileTree.Node β)
  root : nodes.get? [] = some .directory
  closed : ∀ path name node,
    nodes.get? (path ++ [name]) = some node → nodes.get? path = some .directory

namespace FileTree

variable {ν β : Type} [DecidableEq ν]

/-- The tree of the root alone. -/
def new : FileTree ν β where
  nodes := ⟨[([], .directory)], by simp⟩
  root := rfl
  closed path name node found := by
    have member := (KeyedTable.get?_eq_some_iff.mp found)
    simp at member

def node? (t : FileTree ν β) (path : List ν) : Option (Node β) := t.nodes.get? path

def file? (t : FileTree ν β) (path : List ν) : Option β :=
  match t.node? path with
  | some (.file content) => some content
  | _ => none

/-- The paths of the files. -/
def files (t : FileTree ν β) : List (List ν) :=
  t.nodes.rows.filterMap fun
    | (path, .file _) => some path
    | (_, .directory) => none

instance (node : Option (Node β)) : Decidable (node = some .directory) :=
  match node with
  | some .directory => isTrue rfl
  | some (.file _) => isFalse (by simp)
  | none => isFalse (by simp)

theorem file?_eq_some {t : FileTree ν β} {path : List ν} {content : β} :
    t.file? path = some content ↔ t.node? path = some (.file content) := by
  unfold file?
  split
  next found => simp [found]
  next other => simpa using fun found => (other content found).elim

theorem mem_files {t : FileTree ν β} {path : List ν} {content : β}
    (found : t.file? path = some content) : path ∈ t.files :=
  List.mem_filterMap.mpr
    ⟨_, KeyedTable.get?_eq_some_iff.mp (file?_eq_some.mp found), rfl⟩

theorem file?_congr {t t' : FileTree ν β} {path path' : List ν}
    (same : t'.node? path' = t.node? path) : t'.file? path' = t.file? path := by
  simp only [file?, same]

theorem file?_of_directory {t : FileTree ν β} {path : List ν}
    (directory : t.node? path = some .directory) : t.file? path = none := by
  simp only [file?, directory]

/-- What a node lies in are directories. -/
theorem directory_of_above {t : FileTree ν β} {path rest : List ν} {node : Node β}
    (found : t.node? (path ++ rest) = some node) (ne : rest ≠ []) :
    t.node? path = some .directory := by
  induction rest using List.reverseRecOn generalizing node with
  | nil => exact absurd rfl ne
  | append_singleton rest name ih =>
    rw [← List.append_assoc] at found
    have parent : t.node? (path ++ rest) = some .directory := t.closed _ _ _ found
    by_cases last : rest = []
    · rw [last, List.append_nil] at parent
      exact parent
    · exact ih parent last

/-! ## Placing a node -/

/-- There is a directory for a node of that path, and no directory in its place. -/
def Admits (t : FileTree ν β) (path : List ν) : Prop :=
  path ≠ [] ∧ t.node? path.dropLast = some .directory ∧ t.node? path ≠ some .directory

instance (t : FileTree ν β) (path : List ν) : Decidable (t.Admits path) :=
  inferInstanceAs (Decidable (_ ∧ _ ∧ _))

def place (t : FileTree ν β) (path : List ν) (node : Node β) : Option (FileTree ν β) :=
  if admits : t.Admits path then
    some {
      nodes := t.nodes.put path node
      root := by rw [KeyedTable.get?_put, if_neg (Ne.symm admits.1)]; exact t.root
      closed := by
        intro parent name other found
        rw [KeyedTable.get?_put] at found ⊢
        have parent_ne : parent ≠ path := by
          intro same
          split at found
          next above => simp [← above] at same
          next => exact admits.2.2 (same ▸ t.closed _ _ _ found)
        rw [if_neg parent_ne]
        split at found
        next placed =>
          have above := admits.2.1
          rw [← placed, List.dropLast_concat] at above
          exact above
        next => exact t.closed _ _ _ found }
  else none

theorem node?_place {t t' : FileTree ν β} {path : List ν} {node : Node β}
    (placed : t.place path node = some t') (other : List ν) :
    t'.node? other = if other = path then some node else t.node? other := by
  unfold place at placed
  split at placed
  · cases placed
    exact KeyedTable.get?_put ..
  · cases placed

theorem admits_of_place {t t' : FileTree ν β} {path : List ν} {node : Node β}
    (placed : t.place path node = some t') : t.Admits path := by
  unfold place at placed
  split at placed
  next admits => exact admits
  next => cases placed

theorem file?_place {t t' : FileTree ν β} {path : List ν} {content : β}
    (placed : t.place path (.file content) = some t') (other : List ν) :
    t'.file? other = if other = path then some content else t.file? other := by
  by_cases same : other = path
  · rw [if_pos same, file?_eq_some, node?_place placed, if_pos same]
  · rw [if_neg same]
    exact file?_congr (by rw [node?_place placed, if_neg same])

/-- A directory in place of nothing. -/
theorem file?_place_directory {t t' : FileTree ν β} {path : List ν}
    (placed : t.place path .directory = some t') (free : t.node? path = none) (other : List ν) :
    t'.file? other = t.file? other := by
  by_cases same : other = path
  · rw [same, file?_of_directory (by rw [node?_place placed, if_pos rfl])]
    simp only [file?, free]
  · exact file?_congr (by rw [node?_place placed, if_neg same])

/-! ## Directories -/

/-- The directories of `rest` under `path`, until a file stands in the way: whether none does, and
the tree then. -/
def mkdirs (t : FileTree ν β) : List ν → List ν → Bool × FileTree ν β
  | _, [] => (true, t)
  | path, name :: rest =>
    match t.node? (path ++ [name]) with
    | some .directory => t.mkdirs (path ++ [name]) rest
    | some (.file _) => (false, t)
    | none =>
      match t.place (path ++ [name]) .directory with
      | none => (false, t)
      | some t => t.mkdirs (path ++ [name]) rest

theorem file?_mkdirs (t : FileTree ν β) (path rest other : List ν) :
    (t.mkdirs path rest).2.file? other = t.file? other := by
  induction rest generalizing t path with
  | nil => rfl
  | cons name rest ih =>
    unfold mkdirs
    split
    · exact ih t _
    · rfl
    next free =>
      split
      · rfl
      next placed => rw [ih, file?_place_directory placed free]

/-- Only what is on the way is made. -/
theorem node?_mkdirs (t : FileTree ν β) {path rest other : List ν}
    (outside : ¬ other <+: path ++ rest) : (t.mkdirs path rest).2.node? other = t.node? other := by
  induction rest generalizing t path with
  | nil => rfl
  | cons name rest ih =>
    rw [List.append_cons] at outside
    unfold mkdirs
    split
    · exact ih t outside
    · rfl
    · split
      · rfl
      next placed =>
        have apart : other ≠ path ++ [name] := fun same => outside (same ▸ List.prefix_append ..)
        rw [ih _ outside, node?_place placed, if_neg apart]

theorem mkdirs_of_directory {t : FileTree ν β} {path rest : List ν}
    (directory : t.node? (path ++ rest) = some .directory) : t.mkdirs path rest = (true, t) := by
  induction rest generalizing path with
  | nil => rfl
  | cons name rest ih =>
    have next : t.node? (path ++ [name]) = some .directory := by
      by_cases last : rest = []
      · rw [last] at directory
        exact directory
      · rw [List.append_cons] at directory
        exact directory_of_above directory last
    rw [List.append_cons] at directory
    unfold mkdirs
    simp only [next, ih directory]

theorem directory_mkdirs {t : FileTree ν β} {path rest : List ν}
    (start : t.node? path = some .directory) (made : (t.mkdirs path rest).1) :
    (t.mkdirs path rest).2.node? (path ++ rest) = some .directory := by
  induction rest generalizing t path with
  | nil => rw [List.append_nil]; exact start
  | cons name rest ih =>
    rw [List.append_cons]
    unfold mkdirs at made ⊢
    revert made
    split
    next next => exact ih next
    next => exact fun made => nomatch made
    next free =>
      split
      · exact fun made => nomatch made
      next placed => exact ih (by rw [node?_place placed, if_pos rfl])

/-! ## Copying and removing -/

/-- Where a copy goes: into a directory, or over what is there. -/
def copyPath (t : FileTree ν β) (source target : List ν) : List ν :=
  if t.node? target = some .directory then target ++ source.getLast?.toList else target

def copyFile (t : FileTree ν β) (source target : List ν) : Option (FileTree ν β) :=
  match t.node? source with
  | some (.file content) =>
    if t.copyPath source target = source then none
    else t.place (t.copyPath source target) (.file content)
  | _ => none

theorem copyFile_eq_some {t t' : FileTree ν β} {source target : List ν}
    (copied : t.copyFile source target = some t') :
    ∃ content, t.file? source = some content ∧ t.copyPath source target ≠ source ∧
      t.place (t.copyPath source target) (.file content) = some t' := by
  unfold copyFile at copied
  split at copied
  next content found =>
    split at copied
    · cases copied
    next apart => exact ⟨content, file?_eq_some.mpr found, apart, copied⟩
  next => cases copied

/-- Without the nodes that are gone, and what lies in them. -/
def without (t : FileTree ν β) (gone : List ν → Bool) (root : ¬ gone [])
    (down : ∀ path name, gone path → gone (path ++ [name])) : FileTree ν β where
  nodes := t.nodes.deleteWhere fun path _ => gone path
  root := by rw [KeyedTable.get?_deleteWhere, t.root]; simp [root]
  closed := by
    intro path name node found
    rw [KeyedTable.get?_deleteWhere, Option.filter_eq_some_iff] at found
    have stays : gone path = false := by
      by_contra gone_path
      have below := down path name (by simpa using gone_path)
      simp [below] at found
    rw [KeyedTable.get?_deleteWhere, t.closed _ _ _ found.1]
    simp [stays]

/-- Without a node and what lies in it. -/
def remove (t : FileTree ν β) (path : List ν) (ne : path ≠ []) : FileTree ν β :=
  t.without path.isPrefixOf (by simpa using ne) fun other name below =>
    List.isPrefixOf_iff_prefix.mpr
      ((List.isPrefixOf_iff_prefix.mp below).trans (List.prefix_append other [name]))

/-- The root alone. -/
def emptied (t : FileTree ν β) : FileTree ν β := t.without (· ≠ []) (by simp) (by simp)

theorem file?_without (t : FileTree ν β) (gone : List ν → Bool) (root : ¬ gone [])
    (down : ∀ path name, gone path → gone (path ++ [name])) (path : List ν) :
    (t.without gone root down).file? path = if gone path then none else t.file? path := by
  have node : (t.without gone root down).node? path =
      (t.node? path).filter fun _ => !gone path := KeyedTable.get?_deleteWhere ..
  simp only [file?, node]
  cases gone path
  · cases t.node? path <;> rfl
  · cases t.node? path <;> rfl

theorem file?_remove (t : FileTree ν β) {path : List ν} (ne : path ≠ []) (other : List ν) :
    (t.remove path ne).file? other = if path <+: other then none else t.file? other := by
  rw [remove, file?_without]
  simp only [List.isPrefixOf_iff_prefix]

theorem file?_emptied (t : FileTree ν β) (path : List ν) : t.emptied.file? path = none := by
  rw [emptied, file?_without]
  by_cases is_root : path = []
  · rw [is_root, file?_of_directory t.root]
    split <;> rfl
  · rw [if_pos (by simpa using is_root)]

end FileTree
