import Persai.WorkspacePaths.Resolution

/-!
# Classification and resolution

The guards classify the path as it is given, the sandbox opens what it resolves to. For a path that
the sandbox accepts the two are about one file just where the path has no dot segments and its last
segment does not end with white space.
-/

namespace Persai.WorkspacePaths

open Segments

/-- The guards say of the path what they say of the resolved one, and both are about the file that
is opened. -/
structure Agrees (path : String) (resolved : ResolvedWorkspacePath) : Prop where
  kind : (classifyVisibleWorkspacePath path).kind =
    (classifyVisibleWorkspacePath resolved.absolutePath).kind
  assistantId : (classifyVisibleWorkspacePath path).assistantId =
    (classifyVisibleWorkspacePath resolved.absolutePath).assistantId
  sessionId : (classifyVisibleWorkspacePath path).sessionId =
    (classifyVisibleWorkspacePath resolved.absolutePath).sessionId
  valid : isValidVisibleWorkspacePath path = isValidVisibleWorkspacePath resolved.absolutePath
  installLayer : isSessionInstallLayerPath path = isSessionInstallLayerPath resolved.absolutePath
  toolSpill : isToolSpillPath path = isToolSpillPath resolved.absolutePath
  attachable : isAttachableWorkspaceFilePath path =
    isAttachableWorkspaceFilePath resolved.absolutePath
  file : (classifyVisibleWorkspacePath path).normalizedPath = resolved.absolutePath ∧
    (classifyVisibleWorkspacePath resolved.absolutePath).normalizedPath = resolved.absolutePath

/-- No segment is a dot segment, and the last does not end with white space. -/
structure Plain (path : String) : Prop where
  named : ∀ segment ∈ pathSegments path, segment ≠ ['.'] ∧ segment ≠ ['.', '.']
  ends : ∀ segment ∈ (pathSegments path).getLast?, ¬ endsIn isTrimmed segment

/-! ## The normal form of the guards -/

theorem separator_shows : ¬ isTrimmed '/' := by decide

/-- `trim` cuts nothing in front of a separator. -/
theorem trim_toList {rest : List Char} :
    (trim (String.ofList ('/' :: rest))).toList = '/' :: rest.rdropWhile isTrimmed := by
  rw [trim, String.toList_ofList, String.toList_ofList, strip,
    List.dropWhile_cons_of_neg separator_shows]
  exact rdropWhile_cons_of_neg separator_shows rest

theorem normalizeWorkspacePath_eq {path : String} {rest : List Char}
    (starts : replaceEach '\\' '/' path.toList = '/' :: rest) :
    normalizeWorkspacePath path =
      ofSegments (segments '/' ((replaceEach '\\' '/' path.toList).rdropWhile isTrimmed)) := by
  have nonempty : ¬ (trim (String.ofList ('/' :: rest))).isEmpty := by
    rw [String.isEmpty_iff, ← String.toList_inj, trim_toList]
    exact List.cons_ne_nil _ _
  simp only [normalizeWorkspacePath, starts, if_neg nonempty, trim_toList,
    rdropWhile_cons_of_neg separator_shows, segments_sep]
  rw [collapse_eq_absolute]
  rfl

/-- The guards cut no more than white space at the end. -/
theorem normalizeWorkspacePath_of_not_endsIn {path : String} {rest : List Char}
    (starts : replaceEach '\\' '/' path.toList = '/' :: rest)
    (ends : ¬ endsIn isTrimmed (replaceEach '\\' '/' path.toList)) :
    normalizeWorkspacePath path = ofSegments (pathSegments path) := by
  rw [normalizeWorkspacePath_eq starts, rdropWhile_of_not_endsIn ends, pathSegments]

/-- What the guards know of a path is in its normal form. -/
theorem classify_congr {path other : String}
    (same : normalizeWorkspacePath path = normalizeWorkspacePath other) :
    classifyVisibleWorkspacePath path = classifyVisibleWorkspacePath other := by
  rw [classifyVisibleWorkspacePath, classifyVisibleWorkspacePath, same]

theorem agrees_of_normalized {path : String} {resolved : ResolvedWorkspacePath}
    (normalized : normalizeWorkspacePath path = resolved.absolutePath)
    (fixed : normalizeWorkspacePath resolved.absolutePath = resolved.absolutePath) :
    Agrees path resolved := by
  have same := classify_congr (normalized.trans fixed.symm)
  refine ⟨by rw [same], by rw [same], by rw [same], ?_, ?_, ?_, ?_, ?_⟩
  · simp only [isValidVisibleWorkspacePath, same]
  · simp only [isSessionInstallLayerPath, same]
  · simp only [isToolSpillPath, same]
  · simp only [isAttachableWorkspaceFilePath, normalized, fixed]
  · rw [classify_normalizedPath, classify_normalizedPath]
    exact ⟨normalized, fixed⟩

/-! ## Plain paths -/

section
variable {path : String} {parts : List (List Char)}

theorem starts_ofSegments (kept : ∀ segment ∈ parts, Kept segment) :
    replaceEach '\\' '/' (ofSegments parts).toList = '/' :: ['/'].intercalate parts :=
  replaceEach_ofSegments kept

/-- White space at the end of a path is at the end of its last segment. -/
theorem segment_of_endsIn (ends : endsIn isTrimmed (replaceEach '\\' '/' path.toList)) :
    ∃ segment ∈ (pathSegments path).getLast?, endsIn isTrimmed segment := by
  obtain ⟨init, last, w, ne, blanks, before, -⟩ := segments_rdropWhile separator_shows ends
  refine ⟨last ++ w, ?_, ?_⟩
  · rw [pathSegments, before]
    simp
  · rw [endsIn_append ne]
    exact blanks

/-- A resolved path ends with white space if its last segment does. -/
theorem endsIn_ofSegments (kept : ∀ segment ∈ parts, Kept segment) {segment : List Char}
    (last : segment ∈ parts.getLast?) (ends : endsIn isTrimmed segment) :
    endsIn isTrimmed (replaceEach '\\' '/' (ofSegments parts).toList) := by
  obtain ⟨init, rfl⟩ := List.getLast?_eq_some_iff.mp last
  have part := (kept segment (by simp)).part
  rw [replaceEach_ofSegments kept, absolute_concat, endsIn_append part.1]
  exact ends

theorem normalized_of_plain (plain : Plain path) (resolves : Resolves path parts) :
    normalizeWorkspacePath path = ofSegments parts ∧
      normalizeWorkspacePath (ofSegments parts) = ofSegments parts := by
  have same : parts = pathSegments path := by
    refine resolved_of_named resolves.ok fun segment mem => ?_
    exact ⟨(pathSegments_parts mem).1.1, plain.named segment mem⟩
  obtain ⟨rest, starts⟩ := resolves.starts
  have kept := resolves.kept
  constructor
  · rw [normalizeWorkspacePath_of_not_endsIn starts, same]
    intro ends
    obtain ⟨segment, last, blanks⟩ := segment_of_endsIn ends
    exact plain.ends segment last blanks
  · rw [normalizeWorkspacePath_of_not_endsIn (starts_ofSegments kept),
      pathSegments_ofSegments kept]
    intro ends
    obtain ⟨segment, last, blanks⟩ := segment_of_endsIn ends
    rw [pathSegments_ofSegments kept, same] at last
    exact plain.ends segment last blanks

theorem ofSegments_injective {others : List (List Char)}
    (areParts : ∀ part ∈ parts, IsPart '/' part) (areParts' : ∀ part ∈ others, IsPart '/' part)
    (same : ofSegments parts = ofSegments others) : parts = others :=
  absolute_injective areParts areParts' (String.ofList_injective same)

/-- A dot segment is not cut off with white space. -/
theorem named_of_cut
    (cut : segments '/' ((replaceEach '\\' '/' path.toList).rdropWhile isTrimmed) = parts)
    (kept : ∀ segment ∈ parts, Kept segment) :
    ∀ segment ∈ pathSegments path, segment ≠ ['.'] ∧ segment ≠ ['.', '.'] := by
  intro segment mem
  by_cases ends : endsIn isTrimmed (replaceEach '\\' '/' path.toList)
  · obtain ⟨init, last, w, ne, blanks, before, after⟩ := segments_rdropWhile separator_shows ends
    rw [pathSegments, before] at mem
    rcases List.mem_append.mp mem with earlier | is_last
    · exact (kept segment (cut ▸ after ▸ List.mem_append_left _ earlier)).named
    · have blank_end : endsIn isTrimmed segment := by
        rw [List.mem_singleton.mp is_last, endsIn_append ne]
        exact blanks
      constructor <;> rintro rfl <;> revert blank_end <;> decide
  · rw [rdropWhile_of_not_endsIn ends] at cut
    exact (kept segment (cut ▸ mem)).named

theorem plain_of_normalized (resolves : Resolves path parts)
    (normalized : normalizeWorkspacePath path = ofSegments parts)
    (fixed : normalizeWorkspacePath (ofSegments parts) = ofSegments parts) : Plain path := by
  obtain ⟨rest, starts⟩ := resolves.starts
  have kept := resolves.kept
  have isParts := fun segment mem => (kept segment mem).part
  -- what the guards have of the path is what is kept of it
  have cut : segments '/' ((replaceEach '\\' '/' path.toList).rdropWhile isTrimmed) = parts := by
    rw [normalizeWorkspacePath_eq starts] at normalized
    exact ofSegments_injective (fun _ => isPart_of_mem_segments) isParts normalized
  have named := named_of_cut cut kept
  have whole : pathSegments path = parts := by
    refine (resolved_of_named resolves.ok fun segment mem => ?_).symm
    exact ⟨(pathSegments_parts mem).1.1, named segment mem⟩
  refine ⟨named, fun segment last ends => ?_⟩
  have cut_again : segments '/' ((replaceEach '\\' '/' (ofSegments parts).toList).rdropWhile
      isTrimmed) = parts := by
    rw [normalizeWorkspacePath_eq (starts_ofSegments kept)] at fixed
    exact ofSegments_injective (fun _ => isPart_of_mem_segments) isParts fixed
  rw [whole] at last
  refine segments_rdropWhile_ne separator_shows (endsIn_ofSegments kept last ends) ?_
  exact cut_again.trans (pathSegments_ofSegments kept).symm

end

/-- For a path that the sandbox accepts, the classification of the path agrees with that of what it
resolves to just where no segment is a dot segment and the last does not end with white space. -/
theorem agrees_iff_plain (path : String) (resolved : ResolvedWorkspacePath)
    (accepted : assertAllowedMountPrefix path = .ok resolved) :
    Agrees path resolved ↔ Plain path := by
  obtain ⟨parts, resolves, absolutePath⟩ := absolutePath_of_accepted accepted
  constructor
  · intro agrees
    have file := agrees.file
    rw [classify_normalizedPath, classify_normalizedPath, absolutePath] at file
    obtain ⟨normalized, fixed⟩ := file
    exact plain_of_normalized resolves normalized fixed
  · intro plain
    obtain ⟨normalized, fixed⟩ := normalized_of_plain plain resolves
    rw [← absolutePath] at normalized fixed
    exact agrees_of_normalized normalized fixed

theorem agrees_toolSpill :
    Agrees "/workspace/assistants/a//sessions\\s/.tool-spill/out.txt/"
      ⟨"/workspace/assistants/a/sessions/s/.tool-spill/out.txt",
        "assistants/a/sessions/s/.tool-spill/out.txt"⟩ :=
  (agrees_iff_plain _ _ (by decide +kernel)).mpr ⟨by decide +kernel, by decide +kernel⟩

/-- A path whose dot segments lead from one assistant's session to another assistant's. -/
def intoAnother : String := "/workspace/assistants/a/sessions/s/../../../b/shared/report.pdf"

theorem intoAnother_disagrees :
    assertAllowedMountPrefix intoAnother =
        .ok ⟨"/workspace/assistants/b/shared/report.pdf", "assistants/b/shared/report.pdf"⟩ ∧
      (classifyVisibleWorkspacePath intoAnother).kind = .sessionDescendant ∧
      (classifyVisibleWorkspacePath intoAnother).assistantId = some "a" ∧
      (classifyVisibleWorkspacePath "/workspace/assistants/b/shared/report.pdf").kind =
        .assistantSharedDescendant ∧
      (classifyVisibleWorkspacePath "/workspace/assistants/b/shared/report.pdf").assistantId =
        some "b" := by
  decide +kernel

end Persai.WorkspacePaths
