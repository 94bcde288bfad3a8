import Persai.ChatTodos.Plan
import Persai.Forest

/-!
# Who is under whom

In a plan whose parent links form a forest `wouldCreateCycle` always answers, and it answers
whether the candidate is within the moved row. A removal takes exactly the rows within the
removed one.
-/

namespace Persai.ChatTodos

open Forest

variable {rows : Plan} {movingId : String}

theorem collectDescendants_within {found queue : List String}
    (inFound : ∀ id ∈ found, Within (parentOf rows) id movingId)
    (inQueue : ∀ id ∈ queue, Within (parentOf rows) id movingId) :
    ∀ id ∈ collectDescendants rows found queue, Within (parentOf rows) id movingId := by
  fun_induction collectDescendants rows found queue with
  | case1 found => exact inFound
  | case2 found current queue fresh ih =>
    have inFresh : ∀ id ∈ fresh, Within (parentOf rows) id movingId := fun id mem =>
      .step (mem_newChildren.mp mem).1 (inQueue current List.mem_cons_self)
    apply ih
    · exact fun id mem => (List.mem_append.mp mem).elim (inFound id) (inFresh id)
    · exact fun id mem => (List.mem_append.mp mem).elim
        (fun old => inQueue id (List.mem_cons_of_mem current old)) (inFresh id)

/-- The walk never meets a row again: what it has seen is under where it stands. -/
theorem climb_spec (forest : IsForest (parentOf rows)) {found : List String}
    (sound : ∀ id ∈ found, Within (parentOf rows) id movingId) (cursor : String)
    (seen : List String) (passed : ∀ id ∈ seen, Below (parentOf rows) id cursor) :
    (Within (parentOf rows) cursor movingId →
        climb rows movingId found seen (some cursor) = .ok true) ∧
      (¬ Within (parentOf rows) cursor movingId →
        climb rows movingId found seen (some cursor) = .ok false) := by
  induction forest.apply cursor generalizing seen with
  | intro cursor _ ih =>
    have new : cursor ∉ seen := fun mem => forest.not_below_self cursor (passed cursor mem)
    rw [climb]
    by_cases moving : cursor = movingId
    · rw [if_pos moving]
      exact ⟨fun _ => rfl, fun away => absurd (moving ▸ .refl cursor) away⟩
    rw [if_neg moving]
    by_cases descendant : cursor ∈ found
    · rw [if_pos descendant]
      exact ⟨fun _ => rfl, fun away => absurd (sound cursor descendant) away⟩
    rw [if_neg descendant, if_neg new]
    cases link : parentOf rows cursor with
    | none =>
      rw [within_iff_of_none link, climb]
      exact ⟨fun same => absurd same moving, fun _ => rfl⟩
    | some parent =>
      rw [within_iff_of_some link, or_iff_right moving]
      refine ih parent link (cursor :: seen) fun id mem => ?_
      rcases List.mem_cons.mp mem with rfl | old
      · exact .single link
      · exact (passed id old).head link

theorem wouldCreateCycle_spec (forest : IsForest (parentOf rows)) (movingId candidate : String) :
    (Within (parentOf rows) candidate movingId →
        wouldCreateCycle rows movingId candidate = .ok true) ∧
      (¬ Within (parentOf rows) candidate movingId →
        wouldCreateCycle rows movingId candidate = .ok false) := by
  unfold wouldCreateCycle
  by_cases same : movingId = candidate
  · subst same
    rw [if_pos rfl]
    exact ⟨fun _ => rfl, fun away => absurd (.refl movingId) away⟩
  · rw [if_neg same]
    refine climb_spec forest (collectDescendants_within (by simp) fun id mem => ?_) candidate []
      (by simp)
    exact List.mem_singleton.mp mem ▸ .refl id

/-- In a forest the check answers whether the candidate is within the moved row. -/
theorem wouldCreateCycle_eq_false_iff (forest : IsForest (parentOf rows)) {candidate : String} :
    wouldCreateCycle rows movingId candidate = .ok false ↔
      ¬ Within (parentOf rows) candidate movingId := by
  obtain ⟨inside, outside⟩ := wouldCreateCycle_spec forest movingId candidate
  constructor
  · intro answer within
    rw [inside within] at answer
    cases answer
  · exact outside

/-! ## Removal -/

theorem mem_of_parentOf {id p : String} (link : parentOf rows id = some p) :
    ∃ row, (id, row) ∈ rows.rows ∧ row.parentId = some p := by
  obtain ⟨row, stored, link⟩ := Option.bind_eq_some_iff.mp link
  exact ⟨row, KeyedTable.get?_eq_some_iff.mp stored, link⟩

theorem parentOf_deleteWhere (p : String → TodoRow → Bool) {id parent : String} :
    parentOf (rows.deleteWhere p) id = some parent ↔
      ∃ row, rows.get? id = some row ∧ p id row = false ∧ row.parentId = some parent := by
  rw [parentOf, KeyedTable.get?_deleteWhere, Option.bind_eq_some_iff]
  simp only [Option.filter_eq_some_iff, Bool.not_eq_true', and_assoc]

theorem orphaned_iff {deleted : List String} {row : TodoRow} :
    orphaned deleted row = true ↔ ∃ parent ∈ deleted, row.parentId = some parent := by
  simp only [orphaned, Option.any_eq_true, decide_eq_true_eq]
  exact exists_congr fun _ => and_comm

theorem mem_map_select {p : String → TodoRow → Bool} {id : String} :
    id ∈ (rows.select p).map Prod.fst ↔ ∃ row, rows.get? id = some row ∧ p id row = true := by
  simp only [List.mem_map, Prod.exists, exists_and_right, exists_eq_right,
    KeyedTable.mem_select_iff]

/-- The cascade takes the rows under the deleted ones and leaves the others as they are. -/
theorem get?_cascade {deleted : List String} {id : String} {row : TodoRow} :
    (cascade rows deleted).get? id = some row ↔
      rows.get? id = some row ∧ ∀ d ∈ deleted, ¬ Below (parentOf rows) id d := by
  fun_induction cascade rows deleted with
  | case1 rows deleted orphans stops =>
    refine (and_iff_left fun d mem below => ?_).symm
    obtain ⟨child, link, -⟩ := Relation.TransGen.head'_iff.mp below
    obtain ⟨orphan, stored, link⟩ := mem_of_parentOf link
    have found : (child, orphan) ∈ orphans :=
      List.mem_filter.mpr ⟨stored, orphaned_iff.mpr ⟨d, mem, link⟩⟩
    rw [List.isEmpty_iff.mp stops] at found
    cases found
  | case2 rows deleted orphans goesOn ih =>
    have isOrphan (i : String) : i ∈ orphans.map Prod.fst ↔
        ∃ parent ∈ deleted, parentOf rows i = some parent := by
      rw [mem_map_select]
      simp only [orphaned_iff, parentOf, Option.bind_eq_some_iff]
      constructor
      · rintro ⟨row, stored, parent, mem, link⟩; exact ⟨parent, mem, row, stored, link⟩
      · rintro ⟨parent, mem, row, stored, link⟩; exact ⟨row, stored, parent, mem, link⟩
    have rest (i parent : String) :
        parentOf (rows.deleteWhere fun _ row => orphaned deleted row) i = some parent ↔
          parentOf rows i = some parent ∧ i ∉ orphans.map Prod.fst := by
      rw [parentOf_deleteWhere, mem_map_select]
      simp only [parentOf, Option.bind_eq_some_iff, not_exists, not_and, Bool.not_eq_true]
      constructor
      · rintro ⟨row, stored, keeps, link⟩
        refine ⟨⟨row, stored, link⟩, fun other here => ?_⟩
        rw [stored, Option.some.injEq] at here
        exact here ▸ keeps
      · rintro ⟨⟨row, stored, link⟩, keeps⟩
        exact ⟨row, stored, keeps row stored, link⟩
    have same : (∃ d ∈ deleted, Below (parentOf rows) id d) ↔
        id ∈ orphans.map Prod.fst ∨ ∃ d ∈ orphans.map Prod.fst,
          Below (parentOf (rows.deleteWhere fun _ row => orphaned deleted row)) id d :=
      below_iff_below_cut isOrphan rest
    rw [ih, KeyedTable.get?_deleteWhere, Option.filter_eq_some_iff, and_assoc]
    refine and_congr_right fun stored => ?_
    have keeps : (!orphaned deleted row) = true ↔ id ∉ orphans.map Prod.fst := by
      rw [mem_map_select]
      simp [stored]
    rw [keeps]
    simpa only [not_or, not_exists, not_and] using (not_congr same).symm

/-- The deletion takes the rows within the removed one. -/
theorem get?_deleteRow {root id : String} {row : TodoRow} :
    (deleteRow rows root).get? id = some row ↔
      rows.get? id = some row ∧ ¬ Within (parentOf rows) id root := by
  have rest (i parent : String) : parentOf (rows.deleteWhere fun i _ => i == root) i = some parent ↔
      parentOf rows i = some parent ∧ i ≠ root := by
    rw [parentOf_deleteWhere, parentOf, Option.bind_eq_some_iff]
    simp only [beq_eq_false_iff_ne]
    constructor
    · rintro ⟨row, stored, other, link⟩; exact ⟨⟨row, stored, link⟩, other⟩
    · rintro ⟨⟨row, stored, link⟩, other⟩; exact ⟨row, stored, other, link⟩
  rw [deleteRow, get?_cascade, KeyedTable.get?_deleteWhere, Option.filter_eq_some_iff,
    within_iff_below_cut rest, not_or, and_assoc]
  simp

end Persai.ChatTodos
