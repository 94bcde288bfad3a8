import Mathlib.Data.List.Infix
import Persai.WorkspacePaths.Agreement

/-!
# The install layer of a session, by the segments of a path

* `InLayer`: a path below a session begins with `.local` or `.npm-global`, or has a segment
  `node_modules`;
* `isSessionInstallLayerPath_iff`: what `isSessionInstallLayerPath` finds out from the text.
-/

namespace Persai.WorkspacePaths

open Segments

/-- The names of the trees that are in the install layer at the top of a session. -/
def toolTrees : List (List Char) := [".local".toList, ".npm-global".toList]

def nodeModules : List Char := "node_modules".toList

/-- The segments below a session lead into its install layer. -/
def InLayer (below : List (List Char)) : Prop :=
  (∃ first ∈ below.head?, first ∈ toolTrees) ∨ nodeModules ∈ below

instance (below : List (List Char)) : Decidable (InLayer below) := by
  unfold InLayer
  infer_instance

/-- The segments of a path that are below the session it leads into. -/
def belowSession : List (List Char) → Option (List (List Char))
  | root :: area :: assistantId :: kind :: sessionId :: below =>
    if root = "workspace".toList ∧ area = "assistants".toList ∧
        isValidWorkspacePathSegment (String.ofList assistantId) ∧ kind = "sessions".toList ∧
        isValidWorkspacePathSegment (String.ofList sessionId) then some below
    else none
  | _ => none

/-- The segments of a path lead into the install layer of a session. -/
def InstallSegments (segments : List (List Char)) : Prop :=
  ∃ below ∈ belowSession segments, InLayer below

instance (segments : List (List Char)) : Decidable (InstallSegments segments) := by
  unfold InstallSegments
  infer_instance

theorem InLayer.append {below : List (List Char)} (layer : InLayer below)
    (more : List (List Char)) : InLayer (below ++ more) := by
  rcases layer with ⟨first, head, tool⟩ | modules
  · obtain ⟨rest, rfl⟩ := List.head?_eq_some_iff.mp head
    exact .inl ⟨first, rfl, tool⟩
  · exact .inr (List.mem_append_left _ modules)

/-- What lies below a directory of the layer is in the layer. -/
theorem InstallSegments.append {segments : List (List Char)} (layer : InstallSegments segments)
    (more : List (List Char)) : InstallSegments (segments ++ more) := by
  obtain ⟨below, found, layer⟩ := layer
  refine ⟨below ++ more, ?_, layer.append more⟩
  unfold belowSession at found
  split at found
  next root area assistantId kind sessionId rest =>
    split at found
    next valid =>
      cases found
      exact if_pos valid
    next => cases found
  next => cases found

/-! ## The classification of joined segments -/

theorem startsWith_iff {text start : String} :
    startsWith text start ↔ start.toList <+: text.toList := List.isPrefixOf_iff_prefix

theorem endsWith_iff {text ending : String} :
    endsWith text ending ↔ ending.toList <:+ text.toList := List.isSuffixOf_iff_suffix

theorem includes_iff {text part : String} :
    includes text part ↔ part.toList <:+: text.toList := by
  simp only [includes, List.any_eq_true, List.mem_tails, List.isPrefixOf_iff_prefix,
    List.infix_iff_prefix_suffix, and_comm]

theorem segments_session {segs : List String} {assistantId sessionId : String} :
    classifySegments segs = (.sessionDescendant, some assistantId, some sessionId) ↔
      ∃ below, below ≠ [] ∧ segs = "assistants" :: assistantId :: "sessions" :: sessionId :: below ∧
        isValidWorkspacePathSegment assistantId ∧ isValidWorkspacePathSegment sessionId := by
  constructor
  · intro found
    fun_cases classifySegments segs <;> simp_all [classifySegments]
  · rintro ⟨below, ne, rfl, assistant, session⟩
    simp [classifySegments, assistant, session, ne]

theorem ids_of_session {segs : List String}
    (session : (classifySegments segs).1 = .sessionDescendant) :
    ∃ assistantId sessionId,
      classifySegments segs = (.sessionDescendant, some assistantId, some sessionId) := by
  fun_cases classifySegments segs <;> simp_all [classifySegments]
  all_goals split at session <;> cases session

section

variable {parts : List (List Char)}

/-- Segments of a path in normal form. -/
def Normal (parts : List (List Char)) : Prop := ∀ part ∈ parts, IsPart '/' part ∧ '\\' ∉ part

theorem Normal.append {more : List (List Char)} (normal : Normal parts) (normal' : Normal more) :
    Normal (parts ++ more) := fun part mem =>
  (List.mem_append.mp mem).elim (normal part) (normal' part)

theorem Normal.root (normal : Normal parts) : Normal ("workspace".toList :: parts) := by
  intro part mem
  rcases List.mem_cons.mp mem with rfl | mem
  · exact ⟨⟨by decide, by decide⟩, by decide⟩
  · exact normal part mem

theorem ofSegments_cons_append (first : List Char) (more : parts ≠ []) :
    (ofSegments (first :: parts)).toList = '/' :: first ++ '/' :: ['/'].intercalate parts := by
  rw [ofSegments, String.toList_ofList, absolute, intercalate_cons first more]
  rfl

theorem withoutTrailingSeparators_ofSegments (normal : Normal parts) (more : parts ≠ []) :
    withoutTrailingSeparators (ofSegments parts) = ofSegments parts := by
  have ends : ¬ endsIn (· = '/') (absolute '/' parts) := by
    have part := (normal _ (List.getLast_mem more)).1
    rw [← List.dropLast_concat_getLast more, absolute_concat, endsIn_append part.1, endsIn,
      List.getLast?_eq_some_getLast part.1, Option.any_some, decide_eq_true_eq]
    exact fun separator => part.2 (separator ▸ List.getLast_mem part.1)
  rw [withoutTrailingSeparators, ofSegments, String.toList_ofList,
    replaceEach_absolute fun part mem => (normal part mem).2, rdropWhile_of_not_endsIn ends]

/-- Below the root, a path in normal form is classified by its segments. -/
theorem classifyNormalized_ofSegments (normal : Normal parts) (more : parts ≠ []) :
    classifyNormalized (ofSegments ("workspace".toList :: parts)) =
      classifySegments (parts.map String.ofList) := by
  have chars := ofSegments_cons_append "workspace".toList more
  have root : workspaceRoot.toList = '/' :: "workspace".toList := by decide
  have filled : ¬ (ofSegments ("workspace".toList :: parts)).isEmpty := by
    rw [String.isEmpty_iff, ← String.toList_inj, chars]
    exact List.cons_ne_nil _ _
  have begins : startsWith (ofSegments ("workspace".toList :: parts)) "/" := by
    rw [startsWith_iff, chars]
    exact ⟨_, rfl⟩
  have below : ofSegments ("workspace".toList :: parts) ≠ workspaceRoot := by
    rw [ne_eq, ← String.toList_inj, chars, root]
    simp
  have under : isWorkspacePathUnderPrefix (ofSegments ("workspace".toList :: parts))
      workspaceRoot := by
    have plainRoot : withoutTrailingSeparators workspaceRoot = workspaceRoot := by decide
    rw [isWorkspacePathUnderPrefix, plainRoot,
      withoutTrailingSeparators_ofSegments normal.root (List.cons_ne_nil _ _), Bool.or_eq_true,
      startsWith_iff, String.toList_append, chars, root]
    exact .inr ⟨['/'].intercalate parts, by simp⟩
  have relative : dropChars (ofSegments ("workspace".toList :: parts)) (workspaceRoot.length + 1) =
      String.ofList (['/'].intercalate parts) := by
    rw [dropChars, chars]
    rfl
  simp only [classifyNormalized, filled, begins, below, under, relative, String.toList_ofList,
    segments_intercalate fun part mem => (normal part mem).1]
  rfl

theorem sessionRoot_toList (assistantId sessionId : String) :
    (workspaceRoot ++ "/assistants/" ++ assistantId ++ "/sessions/" ++ sessionId).toList =
      absolute '/' ["workspace".toList, "assistants".toList, assistantId.toList,
        "sessions".toList, sessionId.toList] := by
  have root : (workspaceRoot ++ "/assistants/").toList =
      '/' :: "workspace".toList ++ '/' :: "assistants".toList ++ ['/'] := by decide
  have sessions : "/sessions/".toList = '/' :: "sessions".toList ++ ['/'] := by decide
  rw [absolute_eq_flatMap (List.cons_ne_nil _ _)]
  simp only [String.toList_append] at root ⊢
  rw [root, sessions]
  simp only [List.flatMap_cons, List.flatMap_nil, List.append_assoc, List.cons_append,
    List.nil_append, List.append_nil]

/-- The root of a session, and what is below it. -/
theorem ofSegments_session {assistantId sessionId : String} (more : parts ≠ []) :
    (ofSegments ("workspace".toList :: "assistants".toList :: assistantId.toList ::
        "sessions".toList :: sessionId.toList :: parts)).toList =
      (workspaceRoot ++ "/assistants/" ++ assistantId ++ "/sessions/" ++ sessionId).toList ++
        '/' :: ['/'].intercalate parts := by
  have joined : absolute '/' (["workspace".toList, "assistants".toList, assistantId.toList,
      "sessions".toList, sessionId.toList] ++ parts) = _ ++ absolute '/' parts :=
    absolute_append (List.cons_ne_nil _ _) more
  rw [sessionRoot_toList, ofSegments, String.toList_ofList]
  exact joined

theorem inSessionTree_iff {sessionRoot normalized tree : String} (normal : Normal parts)
    (part : IsPart '/' tree.toList)
    (joined : normalized.toList = sessionRoot.toList ++ '/' :: ['/'].intercalate parts) :
    inSessionTree sessionRoot normalized tree ↔ parts.head? = some tree.toList := by
  rw [head?_eq_some_iff (fun part mem => (normal part mem).1) part, inSessionTree, Bool.or_eq_true,
    startsWith_iff, beq_iff_eq, ← String.toList_inj, joined]
  have separator : "/".toList = ['/'] := rfl
  simp [String.toList_append, separator]

theorem nodeModules_iff {sessionRelative : String} (normal : Normal parts)
    (joined : sessionRelative.toList = ['/'].intercalate parts) :
    (sessionRelative == "node_modules" || startsWith sessionRelative "node_modules/" ||
        endsWith sessionRelative "/node_modules" || includes sessionRelative "/node_modules/") ↔
      nodeModules ∈ parts := by
  have part : IsPart '/' nodeModules := ⟨by decide, by decide⟩
  rw [mem_iff_intercalate (fun part mem => (normal part mem).1) part]
  simp only [Bool.or_eq_true, startsWith_iff, endsWith_iff, includes_iff, beq_iff_eq,
    ← String.toList_inj, joined, or_assoc]
  rfl

/-- What the text of a path says below a session. -/
theorem isInstallLayer_session {assistantId sessionId : String}
    (assistant : isValidWorkspacePathSegment assistantId)
    (session : isValidWorkspacePathSegment sessionId) (normal : Normal parts) (more : parts ≠ []) :
    WorkspaceVisiblePathInfo.isInstallLayer
        ⟨.sessionDescendant,
          ofSegments ("workspace".toList :: "assistants".toList :: assistantId.toList ::
            "sessions".toList :: sessionId.toList :: parts),
          some assistantId, some sessionId⟩ ↔
      InLayer parts := by
  have joined := @ofSegments_session _ assistantId sessionId more
  have root : buildAssistantSessionRoot assistantId sessionId =
      some (workspaceRoot ++ "/assistants/" ++ assistantId ++ "/sessions/" ++ sessionId) := by
    simp [buildAssistantSessionRoot, assertValidWorkspacePathSegment, assistant, session]
  have relative : (dropChars (ofSegments ("workspace".toList :: "assistants".toList ::
      assistantId.toList :: "sessions".toList :: sessionId.toList :: parts))
      ((workspaceRoot ++ "/assistants/" ++ assistantId ++ "/sessions/" ++ sessionId).length +
        1)).toList = ['/'].intercalate parts := by
    rw [dropChars, String.toList_ofList, joined, ← String.length_toList, List.drop_append]
    simp
  have localTree : IsPart '/' ".local".toList := ⟨by decide, by decide⟩
  have npmTree : IsPart '/' ".npm-global".toList := ⟨by decide, by decide⟩
  simp only [WorkspaceVisiblePathInfo.isInstallLayer, WorkspaceVisiblePathInfo.sessionRoot,
    ne_eq, not_true_eq_false, if_false, Option.bind_eq_bind, Option.bind_some, root]
  rw [Bool.or_eq_true, Bool.or_eq_true, nodeModules_iff normal relative,
    inSessionTree_iff normal localTree joined, inSessionTree_iff normal npmTree joined]
  simp [InLayer, toolTrees, and_or_left, exists_or]

/-- Segments that lead into a session, as the classification finds them. -/
theorem belowSession_iff {below : List (List Char)} :
    belowSession ("workspace".toList :: parts) = some below ↔
      ∃ assistantId sessionId, parts =
          "assistants".toList :: assistantId.toList :: "sessions".toList :: sessionId.toList ::
            below ∧
        isValidWorkspacePathSegment assistantId ∧ isValidWorkspacePathSegment sessionId := by
  constructor
  · intro found
    unfold belowSession at found
    split at found
    next root area assistantId kind sessionId rest whole =>
      split at found
      next valid =>
        cases found
        obtain ⟨-, rfl, assistant, rfl, session⟩ := valid
        obtain ⟨-, rfl⟩ := List.cons.inj whole
        exact ⟨String.ofList assistantId, String.ofList sessionId, by simp, assistant, session⟩
      next => cases found
    next => cases found
  · rintro ⟨assistantId, sessionId, rfl, assistant, session⟩
    simp [belowSession, assistant, session]

/-- What the text of a path in normal form says, and what its segments say. -/
theorem isSessionInstallLayerPath_iff {path : String} (normal : Normal parts)
    (normalized : normalizeWorkspacePath path = ofSegments ("workspace".toList :: parts)) :
    isSessionInstallLayerPath path ↔ InstallSegments ("workspace".toList :: parts) := by
  by_cases more : parts = []
  · subst more
    rw [isSessionInstallLayerPath, classifyVisibleWorkspacePath, normalized]
    decide
  have classified := classifyNormalized_ofSegments normal more
  simp only [isSessionInstallLayerPath, classifyVisibleWorkspacePath, normalized, classified]
  by_cases session : (classifySegments (parts.map String.ofList)).1 = .sessionDescendant
  · obtain ⟨assistantId, sessionId, found⟩ := ids_of_session session
    obtain ⟨below, ne, segs, assistant, session⟩ := segments_session.mp found
    have whole : parts = "assistants".toList :: assistantId.toList :: "sessions".toList ::
        sessionId.toList :: below.map String.toList := by
      have back := congrArg (List.map String.toList) segs
      simpa [Function.comp_def] using back
    have named := belowSession_iff.mpr ⟨assistantId, sessionId, whole, assistant, session⟩
    have normal' : Normal (below.map String.toList) := fun part mem =>
      normal part (by rw [whole]; simp [List.mem_map.mp mem])
    rw [found, InstallSegments, named, whole,
      isInstallLayer_session assistant session normal' (by simpa using ne)]
    simp
  · have nowhere : ¬ InstallSegments ("workspace".toList :: parts) := by
      rintro ⟨below, found, layer⟩
      obtain ⟨assistantId, sessionId, whole, assistant, valid⟩ := belowSession_iff.mp found
      have ne : below ≠ [] := by
        rintro rfl
        simp [InLayer] at layer
      refine session (congrArg Prod.fst (segments_session.mpr
        ⟨below.map String.ofList, by simpa using ne, ?_, assistant, valid⟩))
      simp [whole]
    refine iff_of_false ?_ nowhere
    simp [WorkspaceVisiblePathInfo.isInstallLayer, WorkspaceVisiblePathInfo.sessionRoot, session]

theorem valid_normal {segment : String} (valid : isValidWorkspacePathSegment segment) :
    IsPart '/' segment.toList ∧ '\\' ∉ segment.toList := by
  unfold isValidWorkspacePathSegment at valid
  dsimp only at valid
  split at valid
  · cases valid
  next trimmed =>
    split at valid
    · cases valid
    · split at valid
      · cases valid
      next plain =>
        simp only [Bool.or_eq_true, bne_iff_ne, ne_eq, not_or, not_not] at trimmed
        rw [trimmed.2] at plain trimmed
        simp only [List.any_eq_true, not_exists, not_and, Bool.or_eq_true, not_or, beq_iff_eq]
          at plain
        refine ⟨⟨?_, fun mem => (plain _ mem).1.1 rfl⟩, fun mem => (plain _ mem).1.2 rfl⟩
        simpa [String.isEmpty_iff] using trimmed.1

/-- A session root in normal form. -/
theorem sessionRoot_normal {assistantId sessionId root : String}
    (built : buildAssistantSessionRoot assistantId sessionId = some root) :
    ∃ parts, Normal parts ∧ root = ofSegments ("workspace".toList :: parts) ∧
      ∀ below, belowSession ("workspace".toList :: (parts ++ below)) = some below := by
  have valid : isValidWorkspacePathSegment assistantId ∧ isValidWorkspacePathSegment sessionId ∧
      workspaceRoot ++ "/assistants/" ++ assistantId ++ "/sessions/" ++ sessionId = root := by
    simpa [buildAssistantSessionRoot, assertValidWorkspacePathSegment, Option.bind_eq_some_iff]
      using built
  obtain ⟨assistant, session, rfl⟩ := valid
  refine ⟨["assistants".toList, assistantId.toList, "sessions".toList, sessionId.toList], ?_, ?_,
    fun below => belowSession_iff.mpr ⟨assistantId, sessionId, rfl, assistant, session⟩⟩
  · have fixed : Normal ["assistants".toList, "sessions".toList] := by
      unfold Normal IsPart
      decide
    intro part mem
    simp only [List.mem_cons, List.not_mem_nil, or_false] at mem
    rcases mem with rfl | rfl | rfl | rfl
    · exact fixed _ (by simp)
    · exact valid_normal assistant
    · exact fixed _ (by simp)
    · exact valid_normal session
  · rw [ofSegments, ← sessionRoot_toList, String.ofList_toList]

end

end Persai.WorkspacePaths
