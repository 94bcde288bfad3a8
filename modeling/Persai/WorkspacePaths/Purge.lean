import Persai.DirectoryTree
import Persai.WorkspacePaths.InstallLayer

/-!
# The purge of the install layer

`purgeSessionInstallLayerTrees` drops the directories of a session by their names alone,
`purgeSessionInstallLayerInWorkspaceMount` those of the whole mount by their visible paths too.

* `visibleSegments`: the names on a path as the guards see them;
* `filters_agree_iff`: the trees of which both leave just the files that are not in the layer.
-/

namespace Persai.WorkspacePaths

open Segments
open DirectoryTree

/-- A name of a directory entry. -/
structure EntryName where
  chars : List Char
  part : IsPart '/' chars
  noNul : Char.ofNat 0 ∉ chars
  named : chars ≠ ['.'] ∧ chars ≠ ['.', '.']
  deriving DecidableEq

def sessionInstallLayerTarBasenames : List (List Char) :=
  [".local".toList, ".npm-global".toList, "node_modules".toList]

def isSessionInstallLayerBasename (name : EntryName) : Bool :=
  sessionInstallLayerTarBasenames.contains name.chars

/-- The path of a file or directory below a root. -/
def pathBelow (root : String) (names : List EntryName) : String :=
  root ++ String.ofList (names.flatMap ('/' :: ·.chars))

section

variable {β : Type}

def purgeSessionInstallLayerTrees (root : DirectoryTree EntryName β) : DirectoryTree EntryName β :=
  root.prune (fun path => path.getLast?.any isSessionInstallLayerBasename) []

def purgeSessionInstallLayerInWorkspaceMount (root : DirectoryTree EntryName β) :
    DirectoryTree EntryName β :=
  root.prune
    (fun path =>
      path.getLast?.any isSessionInstallLayerBasename &&
        isSessionInstallLayerPath (normalizeWorkspacePath (pathBelow workspaceRoot path)))
    []

/-- The purge leaves just the files of a tree whose visible paths are not in the install layer. -/
def FiltersAgree (visibleRoot : String)
    (purge : DirectoryTree EntryName β → DirectoryTree EntryName β)
    (entries : List (EntryName × DirectoryTree EntryName β)) : Prop :=
  ∀ path content, Holds (.directory entries) path content →
    (Holds (purge (.directory entries)) path content ↔
      ¬ isSessionInstallLayerPath (pathBelow visibleRoot path))

end

/-! ## The names that the guards see -/

/-- The names on a path, cut at their backslashes; white space at the end of the last is trimmed. -/
def visibleSegments (names : List EntryName) : List (List Char) :=
  segments '/' ((replaceEach '\\' '/' (names.flatMap ('/' :: ·.chars))).rdropWhile isTrimmed)

/-- In a session: the path is in the layer, but none of its directories is named so. -/
def LayerByNameOnly (names : List EntryName) : Prop :=
  InLayer (visibleSegments names) ∧
    ∀ dir ∈ names.dropLast, ¬ isSessionInstallLayerBasename dir

/-- In a session: the path is not in the layer, but one of its directories below the first is named
like a tree of tools. -/
def NestedToolTree (names : List EntryName) : Prop :=
  ¬ InLayer (visibleSegments names) ∧ ∃ dir ∈ names.dropLast.tail, dir.chars ∈ toolTrees

/-- In the mount: the path is in the layer of a session, but none of its directories that are named
so is. -/
def MountLayerByNameOnly (names : List EntryName) : Prop :=
  InstallSegments ("workspace".toList :: visibleSegments names) ∧
    ∀ dirs dir rest, names = dirs ++ dir :: rest → rest ≠ [] →
      isSessionInstallLayerBasename dir →
        ¬ InstallSegments ("workspace".toList :: visibleSegments (dirs ++ [dir]))

/-- The names on a path, cut at their backslashes. -/
def rawSegments (names : List EntryName) : List (List Char) :=
  names.flatMap fun name => segments '/' (replaceEach '\\' '/' name.chars)

variable {names dirs rest : List EntryName} {dir name : EntryName}

/-- White space before a separator is not at the end. -/
theorem segments_trimmed_append (l m : List Char) :
    segments '/' ((l ++ '/' :: m).rdropWhile isTrimmed) =
      segments '/' l ++ segments '/' (('/' :: m).rdropWhile isTrimmed) := by
  have shown : ¬ ('/' :: m).all isTrimmed := by
    simp [separator_shows]
  rw [rdropWhile_append, if_neg shown, rdropWhile_cons_of_neg separator_shows, segments_append_sep,
    segments_sep]

theorem exists_separator (more : names ≠ []) :
    ∃ m, replaceEach '\\' '/' (names.flatMap ('/' :: ·.chars)) = '/' :: m := by
  obtain ⟨name, names, rfl⟩ := List.exists_cons_of_ne_nil more
  exact ⟨_, by rw [List.flatMap_cons, List.cons_append, replaceEach_cons, if_neg (by decide)]⟩

theorem rawSegments_eq (names : List EntryName) :
    segments '/' (replaceEach '\\' '/' (names.flatMap ('/' :: ·.chars))) = rawSegments names := by
  induction names with
  | nil => rfl
  | cons name names ih =>
    rw [List.flatMap_cons, replaceEach_append, replaceEach_cons, if_neg (by decide)]
    by_cases last : names = []
    · simp [last, rawSegments, replaceEach]
    · obtain ⟨m, found⟩ := exists_separator last
      rw [found] at ih ⊢
      rw [List.cons_append, segments_sep, segments_append_sep, ← segments_sep m, ih]
      rfl

theorem visibleSegments_append (more : rest ≠ []) :
    visibleSegments (dirs ++ rest) = rawSegments dirs ++ visibleSegments rest := by
  obtain ⟨m, found⟩ := exists_separator more
  rw [visibleSegments, visibleSegments, List.flatMap_append, replaceEach_append, found,
    segments_trimmed_append, rawSegments_eq]

theorem normal_visibleSegments (names : List EntryName) : Normal (visibleSegments names) := by
  intro part mem
  refine ⟨isPart_of_mem_segments mem, fun inside => ?_⟩
  have kept := (List.rdropWhile_prefix isTrimmed _).subset (mem_of_mem_segments mem inside)
  exact not_mem_replaceEach (by decide) _ kept

theorem normalizeWorkspacePath_pathBelow {parts : List (List Char)} (normal : Normal parts)
    (more : names ≠ []) :
    normalizeWorkspacePath (pathBelow (ofSegments parts) names) =
      ofSegments (parts ++ visibleSegments names) := by
  obtain ⟨m, found⟩ := exists_separator more
  have chars : replaceEach '\\' '/' (pathBelow (ofSegments parts) names).toList =
      '/' :: (['/'].intercalate parts ++ '/' :: m) := by
    rw [pathBelow, String.toList_append, String.toList_ofList, replaceEach_append, found,
      ofSegments, String.toList_ofList, replaceEach_absolute fun part mem => (normal part mem).2]
    rfl
  rw [normalizeWorkspacePath_eq chars, chars, ← List.cons_append, segments_trimmed_append, ← found]
  exact congrArg (fun first => ofSegments (first ++ visibleSegments names))
    (segments_absolute fun part mem => (normal part mem).1)

/-! ## Directories of the install layer -/

theorem isSessionInstallLayerBasename_iff :
    isSessionInstallLayerBasename dir ↔ dir.chars ∈ toolTrees ∨ dir.chars = nodeModules := by
  have names : sessionInstallLayerTarBasenames = toolTrees ++ [nodeModules] := rfl
  rw [isSessionInstallLayerBasename, List.contains_iff_mem, names, List.mem_append,
    List.mem_singleton]

/-- A name of the layer has no backslash and does not end with white space. -/
theorem plain_of_basename (basename : isSessionInstallLayerBasename dir) :
    '\\' ∉ dir.chars ∧ ¬ endsIn isTrimmed dir.chars := by
  have names : dir.chars = ".local".toList ∨ dir.chars = ".npm-global".toList ∨
      dir.chars = nodeModules := by
    rcases isSessionInstallLayerBasename_iff.mp basename with tool | modules
    · rcases List.mem_cons.mp tool with same | later
      · exact .inl same
      · exact .inr (.inl (List.mem_singleton.mp later))
    · exact .inr (.inr modules)
  rcases names with same | same | same
  all_goals
    rw [same]
    exact ⟨by decide, by decide⟩

theorem rawSegments_singleton (basename : isSessionInstallLayerBasename dir) :
    rawSegments [dir] = [dir.chars] := by
  rw [rawSegments, List.flatMap_singleton, replaceEach_of_not_mem (plain_of_basename basename).1,
    segments_part dir.part]

theorem rawSegments_append (dirs rest : List EntryName) :
    rawSegments (dirs ++ rest) = rawSegments dirs ++ rawSegments rest := List.flatMap_append

theorem mem_rawSegments (mem : dir ∈ dirs) (basename : isSessionInstallLayerBasename dir) :
    dir.chars ∈ rawSegments dirs := by
  refine List.mem_flatMap.mpr ⟨dir, mem, ?_⟩
  rw [replaceEach_of_not_mem (plain_of_basename basename).1, segments_part dir.part]
  exact List.mem_singleton_self _

/-- Nothing is trimmed from a path that ends with a name of the layer. -/
theorem visibleSegments_concat (basename : isSessionInstallLayerBasename dir) :
    visibleSegments (dirs ++ [dir]) = rawSegments (dirs ++ [dir]) := by
  have whole : visibleSegments [dir] = rawSegments [dir] := by
    rw [← rawSegments_eq, visibleSegments]
    congr 1
    refine rdropWhile_of_not_endsIn ?_
    have chars : replaceEach '\\' '/' ([dir].flatMap ('/' :: ·.chars)) = ['/'] ++ dir.chars := by
      rw [List.flatMap_singleton, replaceEach_cons, if_neg (by decide),
        replaceEach_of_not_mem (plain_of_basename basename).1]
      rfl
    rw [chars, endsIn_append dir.part.1]
    exact (plain_of_basename basename).2
  rw [visibleSegments_append (List.cons_ne_nil _ _), whole, rawSegments_append]

/-! ## Sessions -/

/-- A directory of the session that is named like the layer puts the file into it, unless it is a
tree of tools below the first level. -/
theorem inLayer_of_basename {dirs : List EntryName} (mem : dir ∈ dirs)
    (basename : isSessionInstallLayerBasename dir)
    (top : dir.chars ∈ toolTrees → dir ∉ dirs.tail) :
    InLayer (visibleSegments (dirs ++ [name])) := by
  rw [visibleSegments_append (List.cons_ne_nil _ _)]
  rcases isSessionInstallLayerBasename_iff.mp basename with tool | modules
  · obtain ⟨first, others, rfl⟩ := List.exists_cons_of_ne_nil (List.ne_nil_of_mem mem)
    obtain rfl : dir = first := (List.mem_cons.mp mem).resolve_right (top tool)
    refine .inl ⟨dir.chars, ?_, tool⟩
    rw [← List.singleton_append, rawSegments_append, rawSegments_singleton basename]
    rfl
  · refine .inr (List.mem_append_left _ ?_)
    exact modules ▸ mem_rawSegments mem basename

theorem session_filtered_iff {dirs : List EntryName} :
    ((∀ dir ∈ dirs, ¬ isSessionInstallLayerBasename dir) ↔
        ¬ InLayer (visibleSegments (dirs ++ [name]))) ↔
      ¬ LayerByNameOnly (dirs ++ [name]) ∧ ¬ NestedToolTree (dirs ++ [name]) := by
  unfold LayerByNameOnly NestedToolTree
  rw [List.dropLast_concat]
  constructor
  · intro agree
    refine ⟨fun ⟨layer, unnamed⟩ => agree.mp unnamed layer, fun ⟨outside, dir, mem, tool⟩ => ?_⟩
    exact agree.mpr outside dir (List.mem_of_mem_tail mem)
      (isSessionInstallLayerBasename_iff.mpr (.inl tool))
  · rintro ⟨byName, nested⟩
    refine ⟨fun unnamed layer => byName ⟨layer, unnamed⟩, fun outside dir mem basename => ?_⟩
    exact outside (inLayer_of_basename mem basename
      fun tool below => nested ⟨outside, dir, below, tool⟩)

/-! ## Files of a purged tree -/

section

variable {β : Type} {entries : List (EntryName × DirectoryTree EntryName β)} {content : β}

/-- A file below a directory has a name. -/
theorem exists_concat_of_holds (holds : Holds (.directory entries) names content) :
    ∃ dirs name, names = dirs ++ [name] := by
  refine ⟨names.dropLast, names.getLast ?_, (List.dropLast_concat_getLast _).symm⟩
  rintro rfl
  exact holds_directory_nil holds

theorem spares_basenames {dirs : List EntryName} :
    Spares (fun path => path.getLast?.any isSessionInstallLayerBasename) [] (dirs ++ [name]) ↔
      ∀ dir ∈ dirs, ¬ isSessionInstallLayerBasename dir := by
  constructor
  · intro spares dir mem
    obtain ⟨before, after, rfl⟩ := List.append_of_mem mem
    obtain ⟨next, rest, more⟩ := List.exists_cons_of_ne_nil (List.concat_ne_nil name after)
    have := spares (before ++ [dir]) next rest (by simp [← more]) (by simp)
    simpa using this
  · rintro unnamed before next rest whole ne dropped
    obtain ⟨init, dir, rfl⟩ : ∃ init dir, before = init ++ [dir] :=
      ⟨_, _, (List.dropLast_concat_getLast ne).symm⟩
    have shorter : init ++ [dir] <+: dirs := by
      have above : init ++ [dir] <+: dirs ++ [name] := ⟨next :: rest, whole.symm⟩
      rcases List.prefix_concat_iff.mp above with all | shorter
      · rw [all] at whole
        simp at whole
      · exact shorter
    refine unnamed dir (shorter.subset (by simp)) ?_
    simpa using dropped

/-- Without regard to the trees: a file of a session and its visible path. -/
theorem session_layer_iff {parts : List (List Char)} (normal : Normal parts)
    (below : ∀ m, belowSession ("workspace".toList :: (parts ++ m)) = some m)
    (more : names ≠ []) :
    isSessionInstallLayerPath (pathBelow (ofSegments ("workspace".toList :: parts)) names) ↔
      InLayer (visibleSegments names) := by
  rw [isSessionInstallLayerPath_iff (normal.append (normal_visibleSegments names))
    (normalizeWorkspacePath_pathBelow normal.root more), InstallSegments, below]
  simp

theorem workspaceRoot_eq : workspaceRoot = ofSegments ["workspace".toList] := by decide

/-- The visible path of a file of the mount. -/
theorem mount_layer_iff (more : names ≠ []) :
    isSessionInstallLayerPath (pathBelow workspaceRoot names) ↔
      InstallSegments ("workspace".toList :: visibleSegments names) := by
  have root : Normal ([] : List (List Char)) := fun _ mem => nomatch mem
  refine isSessionInstallLayerPath_iff (normal_visibleSegments names) ?_
  rw [workspaceRoot_eq]
  exact normalizeWorkspacePath_pathBelow root.root more

/-- A path in normal form that does not end with white space is its own normal form. -/
theorem normalizeWorkspacePath_concat {parts : List (List Char)} {last : List Char}
    (normal : Normal (parts ++ [last])) (ends : ¬ endsIn isTrimmed last) :
    normalizeWorkspacePath (ofSegments (parts ++ [last])) = ofSegments (parts ++ [last]) := by
  have replaced : replaceEach '\\' '/' (ofSegments (parts ++ [last])).toList =
      absolute '/' (parts ++ [last]) := by
    rw [ofSegments, String.toList_ofList, replaceEach_absolute fun part mem => (normal part mem).2]
  have shown : ¬ endsIn isTrimmed (absolute '/' (parts ++ [last])) := by
    rw [absolute_concat, endsIn_append (normal last (by simp)).1.1]
    exact ends
  rw [normalizeWorkspacePath_eq (replaced.trans rfl), replaced, rdropWhile_of_not_endsIn shown,
    segments_absolute fun part mem => (normal part mem).1]

/-- The visible path of a directory that is named like the layer, in normal form. -/
theorem mount_directory_iff {dirs : List EntryName} (basename : isSessionInstallLayerBasename dir) :
    isSessionInstallLayerPath
        (normalizeWorkspacePath (pathBelow workspaceRoot (dirs ++ [dir]))) ↔
      InstallSegments ("workspace".toList :: visibleSegments (dirs ++ [dir])) := by
  have root : Normal ([] : List (List Char)) := fun _ mem => nomatch mem
  have normal := normal_visibleSegments (dirs ++ [dir])
  have concat : "workspace".toList :: visibleSegments (dirs ++ [dir]) =
      ("workspace".toList :: rawSegments dirs) ++ [dir.chars] := by
    rw [visibleSegments_concat basename, rawSegments_append, rawSegments_singleton basename]
    rfl
  refine isSessionInstallLayerPath_iff normal ?_
  have whole := normal.root
  rw [workspaceRoot_eq, normalizeWorkspacePath_pathBelow root.root (by simp),
    List.singleton_append]
  rw [concat] at whole ⊢
  exact normalizeWorkspacePath_concat whole (plain_of_basename basename).2

theorem spares_mount :
    Spares
        (fun path =>
          path.getLast?.any isSessionInstallLayerBasename &&
            isSessionInstallLayerPath (normalizeWorkspacePath (pathBelow workspaceRoot path)))
        [] names ↔
      ∀ dirs dir rest, names = dirs ++ dir :: rest → rest ≠ [] →
        isSessionInstallLayerBasename dir →
          ¬ InstallSegments ("workspace".toList :: visibleSegments (dirs ++ [dir])) := by
  constructor
  · rintro spares dirs dir rest whole ne basename layer
    obtain ⟨next, rest, rfl⟩ := List.exists_cons_of_ne_nil ne
    refine spares (dirs ++ [dir]) next rest (by simp [whole]) (by simp) ?_
    simpa [basename, mount_directory_iff basename] using layer
  · rintro unlayered before next rest rfl ne dropped
    obtain ⟨init, dir, rfl⟩ : ∃ init dir, before = init ++ [dir] :=
      ⟨_, _, (List.dropLast_concat_getLast ne).symm⟩
    simp only [List.nil_append, List.getLast?_concat, Option.any_some, Bool.and_eq_true] at dropped
    exact unlayered init dir (next :: rest) (by simp) (List.cons_ne_nil _ _) dropped.1
      ((mount_directory_iff dropped.1).mp dropped.2)

theorem mount_filtered_iff :
    ((∀ dirs dir rest, names = dirs ++ dir :: rest → rest ≠ [] →
        isSessionInstallLayerBasename dir →
          ¬ InstallSegments ("workspace".toList :: visibleSegments (dirs ++ [dir]))) ↔
        ¬ InstallSegments ("workspace".toList :: visibleSegments names)) ↔
      ¬ MountLayerByNameOnly names := by
  unfold MountLayerByNameOnly
  constructor
  · exact fun agree ⟨layer, unlayered⟩ => agree.mp unlayered layer
  · intro byName
    refine ⟨fun unlayered layer => byName ⟨layer, unlayered⟩, ?_⟩
    rintro outside dirs dir rest rfl ne basename layer
    refine outside ?_
    rw [List.append_cons, visibleSegments_append ne, ← visibleSegments_concat basename]
    exact layer.append _

/-- The two purges leave just the files whose visible paths are not in the install layer exactly if
no file is in it by its own name or a part of a name alone, and no session has a directory below its
first level that is named like a tree of tools. -/
theorem filters_agree_iff {assistantId sessionId sessionRoot : String}
    (built : buildAssistantSessionRoot assistantId sessionId = some sessionRoot)
    (entries : List (EntryName × DirectoryTree EntryName β)) :
    (FiltersAgree sessionRoot purgeSessionInstallLayerTrees entries ↔
      ∀ path content, Holds (.directory entries) path content →
        ¬ LayerByNameOnly path ∧ ¬ NestedToolTree path) ∧
    (FiltersAgree workspaceRoot purgeSessionInstallLayerInWorkspaceMount entries ↔
      ∀ path content, Holds (.directory entries) path content → ¬ MountLayerByNameOnly path) := by
  obtain ⟨parts, normal, rfl, below⟩ := sessionRoot_normal built
  constructor
  · refine forall_congr' fun path => forall_congr' fun content => imp_congr_right fun holds => ?_
    obtain ⟨dirs, name, rfl⟩ := exists_concat_of_holds holds
    rw [purgeSessionInstallLayerTrees, holds_prune, session_layer_iff normal below (by simp),
      spares_basenames, ← session_filtered_iff]
    simp only [holds, true_and]
  · refine forall_congr' fun path => forall_congr' fun content => imp_congr_right fun holds => ?_
    have ne : path ≠ [] := by
      rintro rfl
      exact holds_directory_nil holds
    rw [purgeSessionInstallLayerInWorkspaceMount, holds_prune, mount_layer_iff ne, spares_mount,
      ← mount_filtered_iff]
    simp only [holds, true_and]

end

def reportName : EntryName := ⟨"report.pdf".toList, ⟨by decide, by decide⟩, by decide, by decide⟩

def projectName : EntryName := ⟨"project".toList, ⟨by decide, by decide⟩, by decide, by decide⟩

def localName : EntryName := ⟨".local".toList, ⟨by decide, by decide⟩, by decide, by decide⟩

/-- A report at the root of a session, and one in its install layer. -/
def layered : List (EntryName × DirectoryTree EntryName Unit) :=
  [(reportName, .file ()),
    (localName, .directory [(projectName, .directory [(reportName, .file ())])])]

theorem report_filtered :
    FiltersAgree "/workspace/assistants/a/sessions/s" purgeSessionInstallLayerTrees layered := by
  have built : buildAssistantSessionRoot "a" "s" = some "/workspace/assistants/a/sessions/s" := by
    decide +kernel
  refine (filters_agree_iff built _).1.mpr ?_
  have cut {path : List EntryName} {content : Unit}
      {entries : List (EntryName × DirectoryTree EntryName Unit)}
      (holds : Holds (.directory entries) path content) :
      ∃ name below t, path = name :: below ∧ (name, t) ∈ entries ∧ Holds t below content := by
    cases holds with
    | entry member inside => exact ⟨_, _, _, rfl, member, inside⟩
  intro path content holds
  obtain ⟨name, below, t, rfl, member, inside⟩ := cut holds
  unfold LayerByNameOnly NestedToolTree
  rcases List.mem_cons.mp member with file | directory
  · obtain ⟨rfl, rfl⟩ := Prod.mk.inj file
    obtain ⟨rfl, rfl⟩ := holds_file.mp inside
    decide +kernel
  · obtain ⟨rfl, rfl⟩ := Prod.mk.inj (List.mem_singleton.mp directory)
    obtain ⟨_, _, _, rfl, member, inside⟩ := cut inside
    obtain ⟨rfl, rfl⟩ := Prod.mk.inj (List.mem_singleton.mp member)
    obtain ⟨_, _, _, rfl, member, inside⟩ := cut inside
    obtain ⟨rfl, rfl⟩ := Prod.mk.inj (List.mem_singleton.mp member)
    obtain ⟨rfl, rfl⟩ := holds_file.mp inside
    decide +kernel

/-- A file in a directory `.local` of a project is purged, although the guards show it. -/
theorem project_local_purged :
    ¬ FiltersAgree "/workspace/assistants/a/sessions/s" purgeSessionInstallLayerTrees
      [(projectName, .directory [(localName, .directory [(reportName, .file ())])])] := by
  intro agree
  have holds : Holds
      (.directory [(projectName, .directory [(localName, .directory [(reportName, .file ())])])])
      [projectName, localName, reportName] () :=
    .entry (List.mem_singleton_self _) (.entry (List.mem_singleton_self _)
      (.entry (List.mem_singleton_self _) (.file ())))
  have left := (agree _ _ holds).mpr (by decide +kernel)
  have purged : purgeSessionInstallLayerTrees
      (.directory [(projectName, .directory [(localName, .directory [(reportName, .file ())])])]) =
        .directory [(projectName, .directory [])] := rfl
  rw [purged] at left
  simp [holds_directory] at left

end Persai.WorkspacePaths
