import Persai.Knowledge.Chunking

/-!
# The chunks cover the document

A chunk that does not reach the end of the text ends after the place where the next one may
begin, and between the two there is only white space.
-/

namespace Persai.Knowledge

open CodeUnits (Text isWhitespace)

theorem breakLength_le (text : Text) : breakLength text ≤ text.length := by
  have newlines := (List.takeWhile_sublist (l := text) (· == 10)).length_le
  unfold breakLength
  dsimp only
  split
  · exact newlines
  · cases text with
    | nil => exact le_rfl
    | cons u rest =>
      have spaces := (List.takeWhile_sublist (l := rest) isWhitespace).length_le
      dsimp only
      rw [List.length_cons]
      split_ifs <;> omega

theorem breakEnds_bounds {stop : ℕ} (text : Text) :
    ∀ {inside index : ℕ}, stop ∈ breakEnds inside index text →
      index < stop ∧ stop ≤ index + text.length := by
  induction text with
  | nil => intro inside index member; cases inside <;> cases member
  | cons u rest ih =>
    intro inside index member
    rw [List.length_cons]
    cases inside with
    | succ inside =>
      have := ih member
      omega
    | zero =>
      rw [breakEnds] at member
      have within := breakLength_le (u :: rest)
      rw [List.length_cons] at within
      split at member
      · have := ih member
        omega
      · obtain rfl | later := List.mem_cons.mp member
        · omega
        · have := ih later
          omega

/-- A break is found in the last 300 characters only. -/
theorem findBreakPoint_bounds {text : Text} {start breakPoint : ℕ}
    (fits : start + maxChunkChars < text.length)
    (found : findBreakPoint text start (start + maxChunkChars) = some breakPoint) :
    start + 1500 < breakPoint ∧ breakPoint ≤ start + maxChunkChars := by
  rw [findBreakPoint] at found
  have bounds := breakEnds_bounds _ (List.mem_of_getLast? found)
  rw [List.length_drop, List.length_take] at bounds
  have most : maxChunkChars = 1800 := rfl
  have window : breakWindowChars = 300 := rfl
  rw [most, window] at bounds
  omega

theorem chunkEnd_bounds {text : Text} {start : ℕ} (inside : start < text.length) :
    start < chunkEnd text start ∧ chunkEnd text start ≤ text.length ∧
      chunkEnd text start ≤ start + maxChunkChars := by
  have positive : 0 < maxChunkChars := by decide
  rw [chunkEnd]
  split
  next fits =>
    rw [min_eq_right (by omega)] at fits ⊢
    split
    next breakPoint found =>
      have bounds := findBreakPoint_bounds fits found
      split <;> omega
    next => omega
  next => omega

theorem skipWhitespace_skips {text : Text} {start i : ℕ} {u : UInt16} (after : start ≤ i)
    (before : i < skipWhitespace text start) (here : text[i]? = some u) :
    isWhitespace u = true := by
  rw [skipWhitespace] at before
  have early : i - start < (text.drop start).findIdx (fun u => !isWhitespace u) := by omega
  have same : (text.drop start)[i - start]? = some u := by
    rw [List.getElem?_drop, Nat.add_sub_cancel' after, here]
  obtain ⟨bound, rfl⟩ := List.getElem?_eq_some_iff.mp same
  simpa using List.not_of_lt_findIdx early

theorem skipWhitespace_stops {text : Text} {start : ℕ} {u : UInt16}
    (here : text[skipWhitespace text start]? = some u) : isWhitespace u = false := by
  rw [skipWhitespace, ← List.getElem?_drop] at here
  simpa using List.findIdx_of_getElem?_eq_some here

/-- The character at a position, when there is one, is kept. -/
def StartsOnText (text : Text) (start : ℕ) : Prop :=
  ∀ u, text[start]? = some u → isWhitespace u = false

theorem nextStart_startsOnText (text : Text) (start stop : ℕ) :
    StartsOnText text (nextStart text start stop) := fun _ here => skipWhitespace_stops here

/-- Only white space is passed over between two chunks. -/
theorem passed_over {text : Text} {start stop i : ℕ} {u : UInt16} (further : start < stop)
    (after : stop ≤ i) (before : i < nextStart text start stop) (here : text[i]? = some u) :
    isWhitespace u = true :=
  skipWhitespace_skips (by omega) before here

theorem normalizeKnowledgeText_startsOnText (text : Text) :
    StartsOnText (normalizeKnowledgeText text) 0 :=
  fun _ here => head_strip isWhitespace _ here

/-- Pieces of a text that do for its chunks from a position on. -/
structure CutFrom (text : Text) (start : ℕ) (pieces : List (Piece text)) : Prop where
  after : ∀ piece ∈ pieces, start ≤ piece.start
  sized : ∀ piece ∈ pieces, piece.content ≠ [] ∧ piece.content.length ≤ maxChunkChars
  ordered : pieces.Pairwise (fun former latter => former.start < latter.start)
  covered : ∀ i u, start ≤ i → text[i]? = some u → isWhitespace u = false →
    ∃ piece ∈ pieces, piece.Covers i

namespace CutFrom

variable {text : Text} {start : ℕ}

theorem nil (beyond : text.length ≤ start) : CutFrom text start [] where
  after := by simp
  sized := by simp
  ordered := .nil
  covered i u after here _ := by
    obtain ⟨inside, -⟩ := List.getElem?_eq_some_iff.mp here
    omega

theorem cons {next : ℕ} {piece : Piece text} {pieces : List (Piece text)}
    (rest : CutFrom text next pieces) (begins : piece.start = start) (further : start < next)
    (size : piece.content ≠ [] ∧ piece.content.length ≤ maxChunkChars)
    (covers : ∀ i u, start ≤ i → i < next → text[i]? = some u → isWhitespace u = false →
      piece.Covers i) : CutFrom text start (piece :: pieces) where
  after := by
    rintro other (_ | ⟨_, member⟩)
    · exact begins.ge
    · exact further.le.trans (rest.after other member)
  sized := by
    rintro other (_ | ⟨_, member⟩)
    · exact size
    · exact rest.sized other member
  ordered := by
    refine List.pairwise_cons.mpr ⟨fun other member => ?_, rest.ordered⟩
    have later := rest.after other member
    omega
  covered i u after here kept := by
    obtain before | behind := Nat.lt_or_ge i next
    · exact ⟨piece, List.mem_cons_self, covers i u after before here kept⟩
    · obtain ⟨other, member, covering⟩ := rest.covered i u behind here kept
      exact ⟨other, List.mem_cons_of_mem _ member, covering⟩

end CutFrom

/-- What a chunk is, wherever the text goes on. -/
theorem exists_chunk {text : Text} {start : ℕ} (starts : StartsOnText text start)
    (inside : start < text.length) :
    ∃ piece : Piece text, piece.start = start ∧
      piece.content = Piece.trimmed isWhitespace text start (chunkEnd text start) ∧
      (piece.content ≠ [] ∧ piece.content.length ≤ maxChunkChars) ∧
      ∀ i u, start ≤ i → i < chunkEnd text start → text[i]? = some u → isWhitespace u = false →
        piece.Covers i := by
  obtain ⟨further, -, short⟩ := chunkEnd_bounds inside
  obtain ⟨piece, begins, content, covers⟩ := Piece.exists_trimmed starts further
  refine ⟨piece, begins, content, ⟨?_, ?_⟩, fun i u after before here kept =>
    covers i u here kept after before⟩
  · rintro empty
    have first := List.getElem?_eq_getElem inside
    have covered := covers start _ first (starts _ first) le_rfl further
    rw [Piece.Covers, empty, begins] at covered
    exact absurd covered.2 (by simp)
  · rw [content]
    have length : (Piece.trimmed isWhitespace text start (chunkEnd text start)).length ≤ _ :=
      Piece.length_trimmed_le isWhitespace start (chunkEnd text start)
    omega

theorem chunksFrom_cut {text : Text} (start chunkIndex : ℕ) (starts : StartsOnText text start) :
    ∃ pieces, CutFrom text start pieces ∧ chunksFrom text start chunkIndex =
      pieces.mapIdx (fun i piece => draft (chunkIndex + i) piece.content) := by
  rw [chunksFrom]
  split
  next inside =>
    obtain ⟨piece, begins, content, size, covers⟩ := exists_chunk starts inside
    have further := lt_nextStart text start (chunkEnd text start)
    dsimp only
    rw [← content, if_neg size.1]
    split
    next final =>
      refine ⟨[piece], CutFrom.cons (.nil final) begins (chunkEnd_bounds inside).1 size covers, ?_⟩
      rw [List.mapIdx_cons, List.mapIdx_nil, Nat.add_zero]
    next =>
      -- the positions between the end of the chunk and the next start hold white space
      obtain ⟨pieces, cut, same⟩ := chunksFrom_cut (nextStart text start (chunkEnd text start))
        (chunkIndex + 1) (nextStart_startsOnText text start _)
      refine ⟨piece :: pieces,
        cut.cons begins further size fun i u after before here kept => ?_, ?_⟩
      · refine covers i u after ?_ here kept
        by_contra behind
        have space := passed_over (chunkEnd_bounds inside).1 (Nat.le_of_not_lt behind) before here
        exact absurd space (by simp [kept])
      · rw [same, List.mapIdx_cons]
        simp only [Nat.add_assoc, Nat.add_comm 1, Nat.add_zero]
  next beyond => exact ⟨[], .nil (Nat.le_of_not_lt beyond), rfl⟩
termination_by text.length - start
decreasing_by omega

/-- The chunks of a text are non-empty pieces of the normalised text of at most 1800 characters,
numbered one after the other and starting further and further on, and every character that is
not white space lies in one of them. -/
theorem chunks_cover (text : Text) :
    ∃ pieces, CutFrom (normalizeKnowledgeText text) 0 pieces ∧
      chunkKnowledgeText text = pieces.mapIdx (fun i piece => draft i piece.content) := by
  obtain ⟨pieces, cut, same⟩ :=
    chunksFrom_cut 0 0 (normalizeKnowledgeText_startsOnText text)
  refine ⟨pieces, cut, ?_⟩
  rw [chunkKnowledgeText, same]
  simp only [Nat.zero_add]

end Persai.Knowledge
