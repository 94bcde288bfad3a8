import Mathlib.Data.List.Sort
import Persai.ChatTodos.Plan
import Persai.Preorder

/-!
# The window of a chat plan

`selectChatPlanWindow` picks the rows that are shown: those in progress, the first of the pending
ones and the last completed ones, each with the rows over it, as long as there is room. They are
listed under their parents.

* `tryAdd_spec`: a row is added with all the rows over it, or nothing is;
* `renderSubtrees_spec`: what is selected is listed once, each row after its parent.
-/

namespace Persai.ChatTodos

open Forest

/-- `RUNTIME_CHAT_PLAN_WINDOW_MAX`. -/
def windowMax : ℕ := 12

structure RuntimeTodoItem where
  id : String
  parentId : Option String
  content : String
  status : TodoStatus
  deriving DecidableEq, Repr

def todoItem (id : String) (row : TodoRow) : RuntimeTodoItem :=
  ⟨id, row.parentId, row.content, row.status⟩

def orderedRows (rows : Plan) : List (String × TodoRow) :=
  rows.rows.insertionSort fun a b =>
    a.2.sortOrder < b.2.sortOrder ∨ a.2.sortOrder = b.2.sortOrder ∧ a.2.createdAt ≤ b.2.createdAt

def idsWith (rows : Plan) (status : TodoStatus) : List String :=
  ((orderedRows rows).filter fun row => row.2.status = status).map Prod.fst

def settledAt (rows : Plan) (id : String) : ℕ :=
  match rows.get? id with
  | some row => row.completedAt.getD row.updatedAt
  | none => 0

def completedMostRecent (rows : Plan) : List String :=
  (idsWith rows .completed).insertionSort fun a b => settledAt rows b ≤ settledAt rows a

/-! ## The selection -/

/-- The parent of a row, when it is one of the rows. -/
def existingParent (rows : Plan) (id : String) : Option String :=
  (parentOf rows id).filter fun parentId => (rows.get? parentId).isSome

/-- Whether the row is selected now, and the selection. -/
def tryAdd (rows : Plan) (selectedIds : List String) (id : String) : Bool × List String :=
  if id ∈ selectedIds then (true, selectedIds)
  else if windowMax ≤ selectedIds.length then (false, selectedIds)
  else
    let added := id :: selectedIds
    match (existingParent rows id).filter (· ∉ added) with
    | none => (true, added)
    | some parentId =>
      if windowMax ≤ added.length then (false, added.erase id)
      else
        match tryAdd rows added parentId with
        | (true, selected) => (true, selected)
        | (false, selected) => (false, selected.erase id)
termination_by windowMax - selectedIds.length
decreasing_by
  rw [List.length_cons]
  omega

/-- Adds the rows in turn, up to one that does not fit. -/
def tryAddAll (rows : Plan) (selectedIds : List String) : List String → List String
  | [] => selectedIds
  | id :: rest =>
    match tryAdd rows selectedIds id with
    | (true, selected) => tryAddAll rows selected rest
    | (false, selected) => selected

def selectedIds (rows : Plan) : List String :=
  let inProgress := tryAddAll rows [] (idsWith rows .inProgress)
  let pending := tryAddAll rows inProgress ((idsWith rows .pending).take 6)
  tryAddAll rows pending ((completedMostRecent rows).take 2)

/-! ## The list -/

def selectedChildren (rows : Plan) (selectedIds : List String) (rootId : String) : List String :=
  ((orderedRows rows).filter fun row =>
    row.2.parentId = some rootId ∧ row.1 ∈ selectedIds).map Prod.fst

def topLevelSelected (rows : Plan) (selectedIds : List String) : List String :=
  ((orderedRows rows).filter fun row =>
    row.1 ∈ selectedIds ∧ ∀ parentId ∈ row.2.parentId, parentId ∉ selectedIds).map Prod.fst

/-- The rows in the order in which `renderSubtree` visits them, and pushes them: under the top
ones first, then under any that are left. -/
def renderSubtrees (rows : Plan) (selectedIds : List String) : List String :=
  Preorder.walk (rows.rows.map Prod.fst) (selectedChildren rows selectedIds)
    (topLevelSelected rows selectedIds ++
      ((orderedRows rows).filter fun row => row.1 ∈ selectedIds).map Prod.fst) []

/-- The rows as they are pushed. -/
def renderedRows (rows : Plan) (visited : List String) : List RuntimeTodoItem :=
  visited.filterMap fun id => (rows.get? id).map (todoItem id)

def selectChatPlanWindow (rows : Plan) : List RuntimeTodoItem × Bool :=
  if rows.rows = [] then ([], false)
  else
    let rendered := renderedRows rows (renderSubtrees rows (selectedIds rows))
    (rendered, rendered.length < rows.rows.length)

/-! ## What is selected -/

variable {rows : Plan} {selected : List String}

/-- A selection that fits, of rows in `within`. -/
structure Fitting (within : String → Prop) (selected : List String) : Prop where
  nodup : selected.Nodup
  within : ∀ id ∈ selected, within id
  capped : selected.length ≤ windowMax

/-- A set of rows that has the existing parents of its rows. -/
def ClosedUp (rows : Plan) (ids : String → Prop) : Prop :=
  ∀ id parentId, ids id → existingParent rows id = some parentId → ids parentId

/-- What becomes of a selection: it grows by rows with the rows over them. -/
structure Grows (rows : Plan) (before after : List String) : Prop where
  kept : ∀ id ∈ before, id ∈ after
  closed : ∀ id ∈ after, id ∉ before → ∀ parentId, existingParent rows id = some parentId →
    parentId ∈ after

theorem Grows.refl : Grows rows selected selected :=
  ⟨fun _ member => member, fun _ member other => absurd member other⟩

theorem Grows.trans {before after later : List String} (h : Grows rows before after)
    (h' : Grows rows after later) : Grows rows before later where
  kept id member := h'.kept id (h.kept id member)
  closed id member other parentId link := by
    by_cases soon : id ∈ after
    · exact h'.kept parentId (h.closed id soon other parentId link)
    · exact h'.closed id member soon parentId link

/-- All of `ids` fit into a window. -/
def Fits (ids : String → Prop) : Prop :=
  ∃ few : List String, few.length ≤ windowMax ∧ ∀ id, ids id → id ∈ few

theorem Fitting.not_fits {within : String → Prop} {id : String} (h : Fitting within selected)
    (full : windowMax ≤ selected.length) (other : id ∉ selected) (more : within id) :
    ¬ Fits within := by
  rintro ⟨few, short, all⟩
  have sub : (id :: selected) ⊆ few := by
    intro x member
    obtain rfl | old := List.mem_cons.mp member
    · exact all _ more
    · exact all x (h.within x old)
  have longer := (List.subperm_of_subset (List.nodup_cons.mpr ⟨other, h.nodup⟩) sub).length_le
  rw [List.length_cons] at longer
  omega

theorem Fitting.cons {within : String → Prop} {id : String} (h : Fitting within selected)
    (room : ¬ windowMax ≤ selected.length) (other : id ∉ selected) (more : within id) :
    Fitting within (id :: selected) where
  nodup := List.nodup_cons.mpr ⟨other, h.nodup⟩
  within := by
    rintro x (_ | ⟨_, member⟩)
    · exact more
    · exact h.within x member
  capped := by
    rw [List.length_cons]
    omega

theorem tryAdd_spec {within : String → Prop} {selected : List String} {id : String}
    (closed : ClosedUp rows within) (inside : within id) (h : Fitting within selected) :
    (∃ after, tryAdd rows selected id = (true, after) ∧ id ∈ after ∧ Fitting within after ∧
        Grows rows selected after) ∨
      tryAdd rows selected id = (false, selected) ∧ ¬ Fits within := by
  rw [tryAdd]
  split_ifs with old full
  · exact .inl ⟨selected, rfl, old, h, .refl⟩
  · exact .inr ⟨rfl, h.not_fits full old inside⟩
  · have added := h.cons full old inside
    dsimp only
    split
    next settled =>
      refine .inl ⟨id :: selected, rfl, List.mem_cons_self, added, ?_, ?_⟩
      · exact fun x member => List.mem_cons_of_mem id member
      · intro x member other parentId link
        obtain rfl : x = id := (List.mem_cons.mp member).resolve_right other
        rw [link, Option.filter_eq_none_iff] at settled
        exact List.mem_cons.mpr (or_iff_not_imp_left.mpr (by simpa using settled parentId))
    next parentId missing =>
      obtain ⟨link, away⟩ := Option.filter_eq_some_iff.mp missing
      have away : parentId ∉ id :: selected := by simpa using away
      have upper := closed id parentId inside link
      rw [List.erase_cons_head]
      split_ifs with cramped
      · exact .inr ⟨rfl, added.not_fits cramped away upper⟩
      · obtain ⟨after, called, here, fitting, grows⟩ | ⟨called, never⟩ :=
          tryAdd_spec closed upper added
        · rw [called]
          refine .inl ⟨after, rfl, grows.kept id List.mem_cons_self, fitting, ?_, ?_⟩
          · exact fun x member => grows.kept x (List.mem_cons_of_mem id member)
          · intro x member other p above
            by_cases same : x = id
            · subst same
              obtain rfl : parentId = p := Option.some.inj (link.symm.trans above)
              exact here
            · exact grows.closed x member (by simp [same, other]) p above
        · rw [called]
          dsimp only
          rw [List.erase_cons_head]
          exact .inr ⟨rfl, never⟩
termination_by windowMax - selected.length
decreasing_by
  rw [List.length_cons]
  omega

theorem tryAddAll_spec {within : String → Prop} {ids : List String}
    (closed : ClosedUp rows within) (inside : ∀ id ∈ ids, within id)
    (h : Fitting within selected) :
    Fitting within (tryAddAll rows selected ids) ∧
      Grows rows selected (tryAddAll rows selected ids) ∧
      ((∀ id ∈ ids, id ∈ tryAddAll rows selected ids) ∨ ¬ Fits within) := by
  induction ids generalizing selected with
  | nil => exact ⟨h, .refl, .inl (by simp)⟩
  | cons id ids ih =>
    rw [tryAddAll]
    obtain ⟨after, called, here, fitting, grows⟩ | ⟨called, never⟩ :=
      tryAdd_spec closed (inside id List.mem_cons_self) h
    · rw [called]
      obtain ⟨fits, onward, all⟩ :=
        ih (fun x member => inside x (List.mem_cons_of_mem id member)) fitting
      refine ⟨fits, grows.trans onward, all.imp_left fun all => ?_⟩
      rintro x (_ | ⟨_, member⟩)
      · exact onward.kept id here
      · exact all x member
    · rw [called]
      exact ⟨h, .refl, .inr never⟩

def Known (rows : Plan) (id : String) : Prop := (rows.get? id).isSome

theorem existingParent_eq_some_iff {id parentId : String} :
    existingParent rows id = some parentId ↔
      parentOf rows id = some parentId ∧ Known rows parentId := by
  rw [existingParent, Option.filter_eq_some_iff, Known]

theorem closedUp_known (rows : Plan) : ClosedUp rows (Known rows) :=
  fun _ _ _ link => (existingParent_eq_some_iff.mp link).2

theorem mem_orderedRows {id : String} {row : TodoRow} :
    (id, row) ∈ orderedRows rows ↔ rows.get? id = some row := by
  rw [orderedRows, List.mem_insertionSort, KeyedTable.get?_eq_some_iff]

theorem mem_idsWith {status : TodoStatus} {id : String} :
    id ∈ idsWith rows status ↔ ∃ row, rows.get? id = some row ∧ row.status = status := by
  simp [idsWith, mem_orderedRows]

theorem known_of_mem_idsWith (status : TodoStatus) :
    ∀ id ∈ idsWith rows status, Known rows id := by
  intro id member
  obtain ⟨row, stored, -⟩ := mem_idsWith.mp member
  rw [Known, stored]
  rfl

/-- The rows in progress and those over them. -/
def Working (rows : Plan) (id : String) : Prop :=
  ∃ busy row, rows.get? busy = some row ∧ row.status = .inProgress ∧
    Within (existingParent rows) busy id

theorem closedUp_working (rows : Plan) : ClosedUp rows (Working rows) := by
  rintro id parentId ⟨busy, row, stored, working, above⟩ link
  exact ⟨busy, row, stored, working, Relation.ReflTransGen.head link above⟩

theorem mem_completedMostRecent {id : String} :
    id ∈ completedMostRecent rows ↔ id ∈ idsWith rows .completed := by
  rw [completedMostRecent, List.mem_insertionSort]

theorem fitting_nil (within : String → Prop) : Fitting within [] :=
  ⟨List.nodup_nil, by simp, Nat.zero_le _⟩

theorem selectedIds_grows (rows : Plan) : Fitting (Known rows) (selectedIds rows) ∧
    Grows rows [] (selectedIds rows) ∧
    Grows rows (tryAddAll rows [] (idsWith rows .inProgress)) (selectedIds rows) := by
  obtain ⟨fits, grows, -⟩ := tryAddAll_spec (closedUp_known rows)
    (known_of_mem_idsWith .inProgress) (fitting_nil _)
  have pending : ∀ id ∈ (idsWith rows .pending).take 6, Known rows id :=
    fun id member => known_of_mem_idsWith .pending id (List.mem_of_mem_take member)
  obtain ⟨fits', grows', -⟩ := tryAddAll_spec (closedUp_known rows) pending fits
  have recent : ∀ id ∈ (completedMostRecent rows).take 2, Known rows id :=
    fun id member => known_of_mem_idsWith .completed id
      (mem_completedMostRecent.mp (List.mem_of_mem_take member))
  obtain ⟨fits'', grows'', -⟩ := tryAddAll_spec (closedUp_known rows) recent fits'
  exact ⟨fits'', grows.trans (grows'.trans grows''), grows'.trans grows''⟩

theorem selectedIds_closed {id parentId : String} (member : id ∈ selectedIds rows)
    (link : existingParent rows id = some parentId) : parentId ∈ selectedIds rows :=
  (selectedIds_grows rows).2.1.closed id member (by simp) parentId link

theorem selectedIds_working (fits : Fits (Working rows)) :
    ∀ id ∈ idsWith rows .inProgress, id ∈ selectedIds rows := by
  have inside : ∀ id ∈ idsWith rows .inProgress, Working rows id := by
    intro id member
    obtain ⟨row, stored, working⟩ := mem_idsWith.mp member
    exact ⟨id, row, stored, working, .refl id⟩
  obtain ⟨-, -, all⟩ := tryAddAll_spec (closedUp_working rows) inside (fitting_nil _)
  intro id member
  exact (selectedIds_grows rows).2.2.kept id
    (all.resolve_right (fun never => never fits) id member)

/-! ## What is listed -/

theorem mem_selectedChildren {rootId id : String} :
    id ∈ selectedChildren rows selected rootId ↔
      id ∈ selected ∧ parentOf rows id = some rootId := by
  simp only [selectedChildren, List.mem_map, List.mem_filter, decide_eq_true_eq, Prod.exists,
    mem_orderedRows, parentOf, Option.bind_eq_some_iff]
  grind

theorem mem_topLevelSelected {id : String} : id ∈ topLevelSelected rows selected ↔
    id ∈ selected ∧ Known rows id ∧ ∀ parentId, parentOf rows id = some parentId →
      parentId ∉ selected := by
  simp only [topLevelSelected, List.mem_map, List.mem_filter, decide_eq_true_eq, Prod.exists,
    mem_orderedRows, parentOf, Option.bind_eq_some_iff, Known, Option.mem_def,
    Option.isSome_iff_exists]
  constructor
  · rintro ⟨id, row, ⟨stored, member, apart⟩, rfl⟩
    refine ⟨member, ⟨row, stored⟩, ?_⟩
    rintro parentId ⟨other, same, link⟩
    obtain rfl : row = other := Option.some.inj (stored.symm.trans same)
    exact apart parentId link
  · rintro ⟨member, ⟨row, stored⟩, apart⟩
    exact ⟨id, row, ⟨stored, member, fun parentId link => apart parentId ⟨row, stored, link⟩⟩, rfl⟩

theorem mem_keys {id : String} : id ∈ rows.rows.map Prod.fst ↔ Known rows id := by
  rw [Known, Option.isSome_iff_exists, List.mem_map]
  simp [KeyedTable.get?_eq_some_iff]

theorem selected_part (forest : IsForest (parentOf rows)) :
    Preorder.Part (rows.rows.map Prod.fst) (selectedChildren rows (selectedIds rows))
      (existingParent rows) (· ∈ selectedIds rows) where
  forest := isForest_of_le (fun _ _ link => (existingParent_eq_some_iff.mp link).1) forest
  known id member := mem_keys.mpr ((selectedIds_grows rows).1.within id member)
  closed _ _ := selectedIds_closed
  child id known other := by
    rw [mem_selectedChildren, existingParent_eq_some_iff, and_iff_left (mem_keys.mp known)]

theorem mem_topLevelSelected_iff {id : String} : id ∈ topLevelSelected rows (selectedIds rows) ↔
    id ∈ selectedIds rows ∧ existingParent rows id = none := by
  rw [mem_topLevelSelected]
  constructor
  · rintro ⟨member, -, apart⟩
    refine ⟨member, Option.eq_none_iff_forall_ne_some.mpr fun parentId link => ?_⟩
    exact apart parentId (existingParent_eq_some_iff.mp link).1 (selectedIds_closed member link)
  · rintro ⟨member, alone⟩
    have within := (selectedIds_grows rows).1.within
    refine ⟨member, within id member, fun parentId link above => ?_⟩
    rw [existingParent_eq_some_iff.mpr ⟨link, within parentId above⟩] at alone
    cases alone

theorem renderSubtrees_spec (forest : IsForest (parentOf rows)) :
    (renderSubtrees rows (selectedIds rows)).Nodup ∧
      (∀ id, id ∈ renderSubtrees rows (selectedIds rows) ↔ id ∈ selectedIds rows) ∧
      Preorder.ParentsFirst (existingParent rows) (renderSubtrees rows (selectedIds rows)) := by
  refine Preorder.walk_forest (selected_part forest) (fun id => mem_topLevelSelected_iff) ?_
  intro id member
  obtain ⟨row, kept, rfl⟩ := List.mem_map.mp member
  simpa using (List.mem_filter.mp kept).2

/-! ## The window -/

/-- What the window of a plan is to be: each selected row once, no more than fit, none without
its parent before it, and the rows in progress whenever they fit. -/
structure IsWindow (rows : Plan) (todos : List RuntimeTodoItem) (windowed : Bool) : Prop where
  shown : ∀ item ∈ todos, ∃ row, rows.get? item.id = some row ∧ item = todoItem item.id row
  once : (todos.map RuntimeTodoItem.id).Nodup
  selected : ∀ id, id ∈ todos.map RuntimeTodoItem.id ↔ id ∈ selectedIds rows
  capped : todos.length ≤ windowMax
  parents : ∀ earlier item later, todos = earlier ++ item :: later →
    ∀ parentId, item.parentId = some parentId → Known rows parentId →
      parentId ∈ earlier.map RuntimeTodoItem.id
  working : Fits (Working rows) → ∀ id row, rows.get? id = some row → row.status = .inProgress →
    id ∈ todos.map RuntimeTodoItem.id
  windowed : windowed ↔ ∃ id, Known rows id ∧ id ∉ todos.map RuntimeTodoItem.id

theorem id_renderedRows {ids : List String} (known : ∀ id ∈ ids, Known rows id) :
    (renderedRows rows ids).map RuntimeTodoItem.id = ids := by
  induction ids with
  | nil => rfl
  | cons id ids ih =>
    obtain ⟨row, stored⟩ := Option.isSome_iff_exists.mp (known id List.mem_cons_self)
    rw [renderedRows, List.filterMap_cons_some (by rw [stored]; rfl), List.map_cons]
    exact congrArg (id :: ·) (ih fun other member => known other (List.mem_cons_of_mem id member))

theorem shown_renderedRows {ids : List String} {item : RuntimeTodoItem}
    (member : item ∈ renderedRows rows ids) :
    ∃ row, rows.get? item.id = some row ∧ item = todoItem item.id row := by
  obtain ⟨id, -, shown⟩ := List.mem_filterMap.mp member
  obtain ⟨row, stored, rfl⟩ := Option.map_eq_some_iff.mp shown
  exact ⟨row, stored, rfl⟩

/-- A list of some of the rows is shorter than the plan when it leaves one out. -/
theorem length_lt_iff {ids : List String} (nodup : ids.Nodup) (known : ∀ id ∈ ids, Known rows id) :
    ids.length < rows.rows.length ↔ ∃ id, Known rows id ∧ id ∉ ids := by
  have sub : ids ⊆ rows.rows.map Prod.fst := fun id member => mem_keys.mpr (known id member)
  have subperm := List.subperm_of_subset nodup sub
  rw [← List.length_map (f := Prod.fst)]
  constructor
  · intro short
    by_contra all
    push Not at all
    have back := List.subperm_of_subset rows.unique fun id member => all id (mem_keys.mp member)
    exact absurd back.length_le (by omega)
  · rintro ⟨id, here, other⟩
    refine lt_of_le_of_ne subperm.length_le fun same => other ?_
    exact (subperm.perm_of_length_le same.ge).mem_iff.mpr (mem_keys.mpr here)

/-- The window of a plan whose parent links are acyclic has each selected row once, at most twelve
rows, each after its parent, and all rows in progress when these and the rows over them fit; it
says so when it leaves a row out. -/
theorem selectChatPlanWindow_isWindow (rows : Plan) (forest : IsForest (parentOf rows)) :
    IsWindow rows (selectChatPlanWindow rows).1 (selectChatPlanWindow rows).2 := by
  obtain ⟨nodup, listed, first⟩ := renderSubtrees_spec forest
  obtain ⟨fitting, -, -⟩ := selectedIds_grows rows
  have known : ∀ id ∈ renderSubtrees rows (selectedIds rows), Known rows id :=
    fun id member => fitting.within id ((listed id).mp member)
  have ids := id_renderedRows known
  have length := congrArg List.length ids
  rw [List.length_map] at length
  have result : selectChatPlanWindow rows =
      (renderedRows rows (renderSubtrees rows (selectedIds rows)),
        decide ((renderSubtrees rows (selectedIds rows)).length < rows.rows.length)) := by
    rw [selectChatPlanWindow]
    dsimp only
    rw [length]
    split_ifs with empty
    · have none : renderSubtrees rows (selectedIds rows) = [] := by
        refine List.eq_nil_iff_forall_not_mem.mpr fun id member => ?_
        have here := mem_keys.mpr (known id member)
        rw [empty] at here
        cases here
      rw [none, empty]
      rfl
    · rfl
  rw [result]
  refine ⟨fun item => shown_renderedRows, ids.symm ▸ nodup, fun id => ids.symm ▸ listed id, ?_, ?_,
    ?_, ?_⟩
  · have short := (List.subperm_of_subset nodup fun id member => (listed id).mp member).length_le
    have capped := fitting.capped
    dsimp only
    omega
  · intro earlier item later split parentId link here
    have order := congrArg (List.map RuntimeTodoItem.id) split
    rw [ids, List.map_append, List.map_cons] at order
    have member : item ∈ renderedRows rows (renderSubtrees rows (selectedIds rows)) := by
      have split : renderedRows rows (renderSubtrees rows (selectedIds rows)) = _ := split
      rw [split]
      simp
    obtain ⟨row, stored, same⟩ := shown_renderedRows member
    refine first _ item.id _ order parentId (existingParent_eq_some_iff.mpr ⟨?_, here⟩)
    rw [parentOf, stored]
    rw [same] at link
    exact link
  · intro fits id row stored working
    dsimp only
    rw [ids, listed]
    exact selectedIds_working fits id (mem_idsWith.mpr ⟨row, stored, working⟩)
  · rw [decide_eq_true_eq, ids]
    exact length_lt_iff nodup known

namespace Sample

/-- A step in progress under another, and one that is pending. -/
def smallPlan : Plan where
  rows := [("b", ⟨some "a", "write", .inProgress, 1, 5, 5, none⟩),
    ("a", ⟨none, "report", .pending, 0, 4, 4, none⟩)]
  unique := by decide

end Sample

theorem selectChatPlanWindow_small :
    selectedIds Sample.smallPlan = ["a", "b"] ∧
      IsWindow Sample.smallPlan (selectChatPlanWindow Sample.smallPlan).1
        (selectChatPlanWindow Sample.smallPlan).2 := by
  refine ⟨by decide +kernel, selectChatPlanWindow_isWindow _ ?_⟩
  have links : parentOf Sample.smallPlan = Function.update (fun _ => none) "b" (some "a") := by
    funext id
    by_cases written : id = "b"
    · subst written
      rw [Function.update_self]
      rfl
    · rw [Function.update_of_ne written]
      by_cases report : id = "a"
      · subst report
        rfl
      · have absent : Sample.smallPlan.get? id = none := by
          rw [KeyedTable.get?_eq_none_iff]
          simp [Sample.smallPlan, written, report]
        rw [parentOf, absent]
        rfl
  rw [links]
  refine isForest_update isForest_none fun c same within => ?_
  rw [within_iff_of_none rfl, ← Option.some.inj same] at within
  exact absurd within (by decide)

end Persai.ChatTodos
