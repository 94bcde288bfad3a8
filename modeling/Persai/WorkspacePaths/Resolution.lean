import Persai.WorkspacePaths.Classification

/-!
# The resolution of paths in the sandbox

`normalizePosixPath`, which resolves dot segments, and `assertAllowedMountPrefix`, which accepts
what resolves to the workspace.
-/

namespace Persai.WorkspacePaths

open Segments

inductive WorkspacePathErrorCode
  | invalidPath | absolutePathRequired | outsideAllowedMount | outsideMountRoot
  deriving DecidableEq, Repr

structure WorkspacePathError where
  code : WorkspacePathErrorCode
  message : String
  deriving DecidableEq, Repr

structure ResolvedWorkspacePath where
  absolutePath : String
  relativePath : String
  deriving DecidableEq, Repr

/-- The loop over the segments; `out` is the stack of those that are kept. -/
def resolveSegments (input : String) :
    List (List Char) → List (List Char) → Except WorkspacePathError (List (List Char))
  | [], out => .ok out.reverse
  | segment :: rest, out =>
    if segment = [] ∨ segment = ['.'] then resolveSegments input rest out
    else if segment = ['.', '.'] then
      match out with
      | [] => .error ⟨.invalidPath, "Path escapes filesystem root: " ++ input⟩
      | _ :: out => resolveSegments input rest out
    else if Char.ofNat 0 ∈ segment then .error ⟨.invalidPath, "Path contains NUL byte."⟩
    else resolveSegments input rest (segment :: out)

theorem resolveSegments_cons (input : String) (segment : List Char)
    (rest out : List (List Char)) :
    resolveSegments input (segment :: rest) out =
      if segment = [] ∨ segment = ['.'] then resolveSegments input rest out
      else if segment = ['.', '.'] then
        match out with
        | [] => .error ⟨.invalidPath, "Path escapes filesystem root: " ++ input⟩
        | _ :: out => resolveSegments input rest out
      else if Char.ofNat 0 ∈ segment then .error ⟨.invalidPath, "Path contains NUL byte."⟩
      else resolveSegments input rest (segment :: out) := by
  rw [resolveSegments.eq_def]

def normalizePosixPath (input : String) : Except WorkspacePathError String :=
  let cleaned := replaceRuns '\\' '/' input.toList
  if cleaned.head? ≠ some '/' then
    .error ⟨.absolutePathRequired,
      "Path must be absolute (start with '/'): got \"" ++ input ++ "\""⟩
  else
    match resolveSegments input (cleaned.splitOn '/') [] with
    | .error error => .error error
    | .ok out => .ok (String.ofList (absolute '/' out))

def normalizeAndClampPath (mountRoot input : String) :
    Except WorkspacePathError ResolvedWorkspacePath := do
  let normalizedRoot ← normalizePosixPath mountRoot
  let normalizedInput ← normalizePosixPath input
  if normalizedInput = normalizedRoot then return ⟨normalizedRoot, ""⟩
  else
    let rootPrefix :=
      if endsWith normalizedRoot "/" then normalizedRoot else normalizedRoot ++ "/"
    if !startsWith normalizedInput rootPrefix then
      .error ⟨.outsideMountRoot,
        "Path \"" ++ input ++ "\" escapes mount root \"" ++ mountRoot ++ "\""⟩
    else return ⟨normalizedInput, dropChars normalizedInput rootPrefix.length⟩

def assertAllowedMountPrefix (input : String) :
    Except WorkspacePathError ResolvedWorkspacePath := do
  let normalizedInput ← normalizePosixPath input
  if normalizedInput ≠ workspaceRoot ∧ !startsWith normalizedInput (workspaceRoot ++ "/") then
    .error ⟨.outsideAllowedMount,
      "Path \"" ++ input ++ "\" is not inside the allowed /workspace mount."⟩
  else normalizeAndClampPath workspaceRoot normalizedInput

/-! ## What is kept -/

/-- A segment that a resolved path can have. -/
structure Kept (segment : List Char) : Prop where
  part : IsPart '/' segment
  named : segment ≠ ['.'] ∧ segment ≠ ['.', '.']
  noNul : Char.ofNat 0 ∉ segment
  noBackslash : '\\' ∉ segment

theorem resolveSegments_skip (input : String) (segments out : List (List Char)) :
    resolveSegments input segments out =
      resolveSegments input (segments.filter (· ≠ [])) out := by
  induction segments generalizing out with
  | nil => rfl
  | cons segment rest ih =>
    by_cases empty : segment = []
    · subst empty
      rw [resolveSegments_cons, if_pos (.inl rfl), ih]
      rfl
    · rw [List.filter_cons_of_pos (by simpa using empty), resolveSegments_cons,
        resolveSegments_cons]
      split
      · exact ih out
      · split
        · cases out with
          | nil => rfl
          | cons _ out => exact ih out
        · split
          · rfl
          · exact ih _

/-- What is resolved is kept, if the segments are parts without backslashes. -/
theorem kept_of_resolved {input : String} {segments out resolved : List (List Char)}
    (ok : resolveSegments input segments out = .ok resolved)
    (parts : ∀ segment ∈ segments, IsPart '/' segment ∧ '\\' ∉ segment)
    (stack : ∀ segment ∈ out, Kept segment) : ∀ segment ∈ resolved, Kept segment := by
  induction segments generalizing out with
  | nil =>
    cases ok
    exact fun segment mem => stack segment (List.mem_reverse.mp mem)
  | cons segment rest ih =>
    have later := fun other mem => parts other (List.mem_cons_of_mem _ mem)
    rw [resolveSegments_cons] at ok
    split at ok
    · exact ih ok later stack
    next not_current =>
      split at ok
      · cases out with
        | nil => cases ok
        | cons _ out => exact ih ok later fun other mem => stack other (List.mem_cons_of_mem _ mem)
      next not_parent =>
        split at ok
        · cases ok
        next noNul =>
          obtain ⟨part, noBackslash⟩ := parts segment List.mem_cons_self
          refine ih ok later fun other mem => ?_
          rcases List.mem_cons.mp mem with rfl | mem
          · exact ⟨part, ⟨fun is_current => not_current (.inr is_current), not_parent⟩, noNul,
              noBackslash⟩
          · exact stack other mem

/-- Without dot segments nothing is resolved. -/
theorem resolved_of_named {input : String} {segments out resolved : List (List Char)}
    (ok : resolveSegments input segments out = .ok resolved)
    (named : ∀ segment ∈ segments, segment ≠ [] ∧ segment ≠ ['.'] ∧ segment ≠ ['.', '.']) :
    resolved = out.reverse ++ segments := by
  induction segments generalizing out with
  | nil =>
    cases ok
    simp
  | cons segment rest ih =>
    obtain ⟨ne, not_current, not_parent⟩ := named segment List.mem_cons_self
    rw [resolveSegments_cons, if_neg (by simp [ne, not_current]), if_neg not_parent] at ok
    split at ok
    · cases ok
    · rw [ih ok fun other mem => named other (List.mem_cons_of_mem _ mem)]
      simp

theorem resolveSegments_of_kept (input : String) {segments : List (List Char)}
    (kept : ∀ segment ∈ segments, Kept segment) (out : List (List Char)) :
    resolveSegments input segments out = .ok (out.reverse ++ segments) := by
  induction segments generalizing out with
  | nil => simp [resolveSegments]
  | cons segment rest ih =>
    have first := kept segment List.mem_cons_self
    rw [resolveSegments_cons, if_neg (by simp [first.part.1, first.named.1]), if_neg first.named.2,
      if_neg first.noNul, ih fun other mem => kept other (List.mem_cons_of_mem _ mem)]
    simp

/-! ## The normal form -/

/-- The segments of a path with its backslashes as separators. -/
def pathSegments (path : String) : List (List Char) :=
  segments '/' (replaceEach '\\' '/' path.toList)

def ofSegments (parts : List (List Char)) : String := String.ofList (absolute '/' parts)

theorem pathSegments_parts {path : String} {segment : List Char}
    (mem : segment ∈ pathSegments path) : IsPart '/' segment ∧ '\\' ∉ segment :=
  ⟨isPart_of_mem_segments mem, fun inside =>
    not_mem_replaceEach (by decide) _ (mem_of_mem_segments mem inside)⟩

theorem normalizePosixPath_eq (input : String) :
    normalizePosixPath input =
      if (replaceEach '\\' '/' input.toList).head? ≠ some '/' then
        .error ⟨.absolutePathRequired,
          "Path must be absolute (start with '/'): got \"" ++ input ++ "\""⟩
      else (resolveSegments input (pathSegments input) []).map ofSegments := by
  have cleaned := @segments_replaceRuns Char _ '/' '\\' [] input.toList
  simp only [normalizePosixPath, head?_replaceRuns]
  split
  · rfl
  · rw [resolveSegments_skip]
    rw [List.nil_append, List.nil_append] at cleaned
    rw [pathSegments, ← cleaned, segments]
    split
    next failed => rw [failed]; rfl
    next ok => rw [ok]; rfl

/-- What a path resolves to. -/
structure Resolves (path : String) (resolved : List (List Char)) : Prop where
  starts : ∃ rest, replaceEach '\\' '/' path.toList = '/' :: rest
  ok : resolveSegments path (pathSegments path) [] = .ok resolved
  kept : ∀ segment ∈ resolved, Kept segment

theorem resolves_of_ok {input absolutePath : String}
    (ok : normalizePosixPath input = .ok absolutePath) :
    ∃ resolved, Resolves input resolved ∧ absolutePath = ofSegments resolved := by
  rw [normalizePosixPath_eq] at ok
  split at ok
  · cases ok
  next starts =>
    cases found : resolveSegments input (pathSegments input) [] with
    | error error => rw [found] at ok; cases ok
    | ok resolved =>
      rw [found] at ok
      cases ok
      have kept := kept_of_resolved found (fun _ => pathSegments_parts)
        fun _ mem => nomatch mem
      have head := List.head?_eq_some_iff.mp (Decidable.not_not.mp starts)
      exact ⟨resolved, ⟨head, found, kept⟩, rfl⟩

theorem replaceEach_absolute {parts : List (List Char)}
    (plain : ∀ segment ∈ parts, '\\' ∉ segment) :
    replaceEach '\\' '/' (absolute '/' parts) = absolute '/' parts := by
  refine replaceEach_of_not_mem fun mem => ?_
  rcases mem_absolute mem with is_separator | ⟨part, inside, mem⟩
  · exact absurd is_separator (by decide)
  · exact plain part inside mem

theorem replaceEach_ofSegments {parts : List (List Char)}
    (kept : ∀ segment ∈ parts, Kept segment) :
    replaceEach '\\' '/' (ofSegments parts).toList = absolute '/' parts := by
  rw [ofSegments, String.toList_ofList]
  exact replaceEach_absolute fun part mem => (kept part mem).noBackslash

theorem pathSegments_ofSegments {parts : List (List Char)}
    (kept : ∀ segment ∈ parts, Kept segment) : pathSegments (ofSegments parts) = parts := by
  rw [pathSegments, replaceEach_ofSegments kept]
  exact segments_absolute fun part mem => (kept part mem).part

/-- What is resolved is resolved to itself. -/
theorem normalizePosixPath_ofSegments {parts : List (List Char)}
    (kept : ∀ segment ∈ parts, Kept segment) :
    normalizePosixPath (ofSegments parts) = .ok (ofSegments parts) := by
  rw [normalizePosixPath_eq, replaceEach_ofSegments kept, pathSegments_ofSegments kept,
    resolveSegments_of_kept _ kept]
  rfl

/-- An accepted path is resolved to the root or below it. -/
theorem resolves_of_accepted {path : String} {r : ResolvedWorkspacePath}
    (accepted : assertAllowedMountPrefix path = .ok r) :
    ∃ resolved, Resolves path resolved ∧ r.absolutePath = ofSegments resolved ∧
      (ofSegments resolved = workspaceRoot ∨
        startsWith (ofSegments resolved) (workspaceRoot ++ "/")) := by
  simp only [assertAllowedMountPrefix, normalizeAndClampPath, bind, Except.bind] at accepted
  cases normalized : normalizePosixPath path with
  | error error => rw [normalized] at accepted; cases accepted
  | ok absolutePath =>
    obtain ⟨resolved, resolves, rfl⟩ := resolves_of_ok normalized
    simp only [normalized, normalizePosixPath_ofSegments resolves.kept] at accepted
    split at accepted
    · cases accepted
    next allowed =>
      have under : ofSegments resolved = workspaceRoot ∨
          startsWith (ofSegments resolved) (workspaceRoot ++ "/") := by
        by_contra outside
        rw [not_or] at outside
        exact allowed ⟨outside.1, by simpa using outside.2⟩
      refine ⟨resolved, resolves, ?_, under⟩
      split at accepted
      · cases accepted
      · split at accepted
        next same => cases accepted; exact same.symm
        next =>
          -- the root with or without a separator, and the path under it or not
          split at accepted <;> split at accepted <;> cases accepted <;> rfl

theorem absolutePath_of_accepted {path : String} {r : ResolvedWorkspacePath}
    (accepted : assertAllowedMountPrefix path = .ok r) :
    ∃ resolved, Resolves path resolved ∧ r.absolutePath = ofSegments resolved := by
  obtain ⟨resolved, resolves, same, -⟩ := resolves_of_accepted accepted
  exact ⟨resolved, resolves, same⟩

end Persai.WorkspacePaths
