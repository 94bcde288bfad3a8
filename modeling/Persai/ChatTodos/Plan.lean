import Mathlib.Logic.Function.Basic
import Persai.KeyedTable
import Persai.Text

/-!
# Chat plans

`AssistantChatTodosService` over the rows of one chat: `add`, `update`, `complete`, `remove` and
`clear`. A transaction that throws leaves the table as it was. The order in which rows are loaded
shows only in the window that a response is cut to.
-/

namespace Persai.ChatTodos

/-- `HARD_ACTIVE_CAP`. -/
def hardActiveCap : Nat := 500

/-- `SOFT_ACTIVE_CAP`. -/
def softActiveCap : Nat := 200

def maxContentLength : Nat := 240

def maxAddItemsPerCall : Nat := 50

inductive TodoStatus where
  | pending
  | inProgress
  | completed
  deriving DecidableEq, Repr

/-- A row of `assistant_chat_todos`; its id is the key in the table. -/
structure TodoRow where
  parentId : Option String
  content : String
  status : TodoStatus
  sortOrder : Nat
  createdAt : Nat
  updatedAt : Nat
  completedAt : Option Nat
  deriving DecidableEq, Repr

/-- The rows of one chat. -/
abbrev Plan := KeyedTable String TodoRow

inductive ApiError where
  | badRequest (message : String)
  | notFound (message : String)
  | serviceUnavailable (message : String)
  /-- The database refuses a second row under one id. -/
  | uniqueViolation
  deriving DecidableEq, Repr

/-- What the database and the clocks give an action: the ids that rows get, in turn, the
transaction's time and the time of the service. -/
structure Draws where
  ids : Nat → String
  dbNow : Nat
  now : Nat

inductive MutationAction where
  | applied
  | skipped
  deriving DecidableEq, Repr

structure Mutation where
  action : MutationAction
  reason : Option String
  warning : Option String
  finalRows : List (String × TodoRow)
  deriving DecidableEq, Repr

def skip (reason : String) (existing : Plan) : Mutation × Plan :=
  (⟨.skipped, some reason, none, existing.rows⟩, existing)

def applied (warning : Option String) (final : Plan) : Mutation × Plan :=
  (⟨.applied, none, warning, final.rows⟩, final)

/-! ## Arguments -/

def normalizeContent (value : String) : Except ApiError String :=
  let trimmed := collapseWhitespace (trim value)
  if utf16Length trimmed = 0 then .error (.badRequest "content must be a non-empty string.")
  else if maxContentLength < utf16Length trimmed then
    .error (.badRequest ("content exceeds the " ++ toString maxContentLength ++ "-char limit."))
  else .ok trimmed

def normalizeOptionalParentId (value : Option String) : Option String :=
  match value with
  | none => none
  | some value => if trim value = "" then none else some (trim value)

/-- `parentId` is `none` where it is `undefined` or `null`. -/
structure AddItemInput where
  content : String
  parentId : Option String
  status : Option TodoStatus

structure AddItem where
  content : String
  parentId : Option String
  status : TodoStatus

def normalizeAddItem (item : AddItemInput) : Except ApiError AddItem := do
  let content ← normalizeContent item.content
  let parentId := normalizeOptionalParentId item.parentId
  match item.status with
  | none => .ok ⟨content, parentId, .pending⟩
  | some .completed =>
    .error (.badRequest "Cannot start a new todo with status=completed.")
  | some status => .ok ⟨content, parentId, status⟩

/-! ## add -/

/-- The bucket of the siblings under a parent. -/
def bucketOf (parentId : Option String) : String := parentId.getD "__root__"

def checkRequestedParent (existing : Plan) (requestedParentId : String) : Except ApiError Unit :=
  match existing.get? requestedParentId with
  | none =>
    .error (.badRequest ("parentId \"" ++ requestedParentId ++ "\" does not exist in this chat."))
  | some parent =>
    if parent.status = .completed then
      .error (.badRequest
        ("parentId \"" ++ requestedParentId ++ "\" is completed; cannot attach new children."))
    else .ok ()

structure AddState where
  plan : Plan
  sortOrderCursorByParent : String → Nat
  inProgressByParent : String → Bool
  coercedInProgressCount : Nat

def raiseCursor (cursor : String → Nat) (row : TodoRow) : String → Nat :=
  if cursor (bucketOf row.parentId) < row.sortOrder then
    Function.update cursor (bucketOf row.parentId) row.sortOrder
  else cursor

def markInProgress (busy : String → Bool) (row : TodoRow) : String → Bool :=
  if row.status = .inProgress then Function.update busy (bucketOf row.parentId) true else busy

def AddState.start (existing : Plan) : AddState where
  plan := existing
  sortOrderCursorByParent := (existing.rows.map Prod.snd).foldl raiseCursor fun _ => 0
  inProgressByParent := (existing.rows.map Prod.snd).foldl markInProgress fun _ => false
  coercedInProgressCount := 0

/-- A second row in progress in a bucket is made pending. -/
def AddState.coerces (s : AddState) (item : AddItem) : Bool :=
  item.status == .inProgress && s.inProgressByParent (bucketOf item.parentId)

def AddState.newRow (s : AddState) (draws : Draws) (item : AddItem) : TodoRow where
  parentId := item.parentId
  content := item.content
  status := if s.coerces item then .pending else item.status
  sortOrder := s.sortOrderCursorByParent (bucketOf item.parentId) + 1
  createdAt := draws.dbNow
  updatedAt := draws.now
  completedAt := none

def createItem (draws : Draws) (n : Nat) (s : AddState) (item : AddItem) :
    Except ApiError AddState :=
  match s.plan.create (draws.ids n) (s.newRow draws item) with
  | none => .error .uniqueViolation
  | some plan => .ok {
      plan
      sortOrderCursorByParent := Function.update s.sortOrderCursorByParent
        (bucketOf item.parentId) (s.sortOrderCursorByParent (bucketOf item.parentId) + 1)
      inProgressByParent := markInProgress s.inProgressByParent (s.newRow draws item)
      coercedInProgressCount := s.coercedInProgressCount + if s.coerces item then 1 else 0 }

def createItems (draws : Draws) : Nat → AddState → List AddItem → Except ApiError AddState
  | _, s, [] => .ok s
  | n, s, item :: items => do
    let s ← createItem draws n s item
    createItems draws (n + 1) s items

def addWarning (coercedInProgressCount total : Nat) : Option String :=
  if coercedInProgressCount = 1 then
    some "1 new item was coerced to pending because another sibling is already in_progress."
  else if 0 < coercedInProgressCount then
    some (toString coercedInProgressCount ++
      " new items were coerced to pending because another sibling is already in_progress.")
  else if softActiveCap < total then
    some ("Chat plan now has " ++ toString total ++ " active items, above the soft cap of " ++
      toString softActiveCap ++ ". Older items will roll out of the visible window.")
  else none

/-- The transaction of `handleAdd`. The source checks each requested parent once; a second check
of one tells nothing new. -/
def addRows (existing : Plan) (draws : Draws) (normalizedItems : List AddItem) :
    Except ApiError (Mutation × Plan) :=
  if hardActiveCap < existing.rows.length + normalizedItems.length then
    .ok (skip "cap_exceeded" existing)
  else do
    (normalizedItems.filterMap AddItem.parentId).forM (checkRequestedParent existing)
    let s ← createItems draws 0 (.start existing) normalizedItems
    .ok (applied (addWarning s.coercedInProgressCount s.plan.rows.length) s.plan)

def handleAdd (existing : Plan) (draws : Draws) (items : List AddItemInput) :
    Except ApiError (Mutation × Plan) :=
  if items.isEmpty then .error (.badRequest "add action requires at least one item.")
  else if maxAddItemsPerCall < items.length then
    .error (.badRequest
      ("add action cannot exceed " ++ toString maxAddItemsPerCall ++ " items per call."))
  else do
    let normalizedItems ← items.mapM normalizeAddItem
    addRows existing draws normalizedItems

/-! ## update -/

def parentOf (rows : Plan) (id : String) : Option String := (rows.get? id).bind TodoRow.parentId

/-- How many rows are not in `seen`: what bounds the searches below. -/
def unseen (rows : Plan) (seen : List String) : Nat := rows.count fun id _ => decide (id ∉ seen)

theorem unseen_lt {rows : Plan} {seen later : List String} (grows : ∀ id ∈ seen, id ∈ later)
    {id : String} (row : (rows.get? id).isSome) (new : id ∉ seen) (now : id ∈ later) :
    unseen rows later < unseen rows seen := by
  obtain ⟨content, stored⟩ := Option.isSome_iff_exists.mp row
  have left : List.Sublist (rows.select fun i _ => decide (i ∉ later))
      (rows.select fun i _ => decide (i ∉ seen)) :=
    List.monotone_filter_right _ fun r absent => by
      simp only [decide_eq_true_eq] at absent ⊢
      exact fun mem => absent (grows r.1 mem)
  refine Nat.lt_of_le_of_ne left.length_le fun same => ?_
  have equal := left.eq_of_length same
  have counted : (id, content) ∈ rows.select fun i _ => decide (i ∉ seen) :=
    KeyedTable.mem_select_iff.mpr ⟨stored, by simpa using new⟩
  rw [← equal, KeyedTable.mem_select_iff] at counted
  simp [now] at counted

/-- The children of `current` that are not in `seen`. -/
def newChildren (rows : Plan) (current : String) (seen : List String) : List String :=
  (rows.select fun id row => row.parentId == some current && decide (id ∉ seen)).map Prod.fst

theorem mem_newChildren {rows : Plan} {current id : String} {seen : List String} :
    id ∈ newChildren rows current seen ↔ parentOf rows id = some current ∧ id ∉ seen := by
  simp only [newChildren, List.mem_map, Prod.exists, exists_and_right, exists_eq_right,
    KeyedTable.mem_select_iff, Bool.and_eq_true, beq_iff_eq, decide_eq_true_eq, parentOf,
    Option.bind_eq_some_iff]
  constructor
  · rintro ⟨row, stored, link, new⟩; exact ⟨⟨row, stored, link⟩, new⟩
  · rintro ⟨⟨row, stored, link⟩, new⟩; exact ⟨row, stored, link, new⟩

theorem isSome_of_parentOf {rows : Plan} {id p : String} (link : parentOf rows id = some p) :
    (rows.get? id).isSome := by
  obtain ⟨row, stored, -⟩ := Option.bind_eq_some_iff.mp link
  exact stored ▸ rfl

theorem unseen_newChildren (rows : Plan) (current : String) (seen : List String) :
    unseen rows (seen ++ newChildren rows current seen) +
      (newChildren rows current seen).length ≤ unseen rows seen := by
  have distinct : (newChildren rows current seen).Nodup :=
    rows.unique.sublist (List.filter_sublist.map Prod.fst)
  have fresh : ∀ id ∈ newChildren rows current seen, (rows.get? id).isSome ∧ id ∉ seen :=
    fun id mem =>
      have child := mem_newChildren.mp mem
      ⟨isSome_of_parentOf child.1, child.2⟩
  generalize newChildren rows current seen = added at distinct fresh ⊢
  induction added generalizing seen with
  | nil => simp
  | cons id added ih =>
    have first := fresh id List.mem_cons_self
    have drop : unseen rows (seen ++ [id]) < unseen rows seen :=
      unseen_lt (fun _ mem => List.mem_append_left _ mem) first.1 first.2 (by simp)
    have rest := ih (seen ++ [id]) (List.nodup_cons.mp distinct).2 fun other mem => by
      refine ⟨(fresh other (List.mem_cons_of_mem id mem)).1, fun old => ?_⟩
      rcases List.mem_append.mp old with old | old
      · exact (fresh other (List.mem_cons_of_mem id mem)).2 old
      · exact (List.nodup_cons.mp distinct).1 (List.mem_singleton.mp old ▸ mem)
    rw [List.append_assoc, List.singleton_append] at rest
    rw [List.length_cons]
    omega

/-- The breadth-first search of `wouldCreateCycle`. -/
def collectDescendants (rows : Plan) (movingDescendants : List String) :
    List String → List String
  | [] => movingDescendants
  | current :: queue =>
    let fresh := newChildren rows current movingDescendants
    collectDescendants rows (movingDescendants ++ fresh) (queue ++ fresh)
  termination_by queue => unseen rows movingDescendants + queue.length
  decreasing_by
    have := unseen_newChildren rows current movingDescendants
    simp only [List.length_append, List.length_cons]
    omega

/-- The walk up of `wouldCreateCycle`. -/
def climb (rows : Plan) (movingId : String) (movingDescendants : List String)
    (seen : List String) : Option String → Except ApiError Bool
  | none => .ok false
  | some cursor =>
    if cursor = movingId then .ok true
    else if cursor ∈ movingDescendants then .ok true
    else if cursor ∈ seen then
      .error (.serviceUnavailable
        ("Cycle detected in existing chat plan involving \"" ++ cursor ++ "\"."))
    else climb rows movingId movingDescendants (cursor :: seen) (parentOf rows cursor)
  termination_by cursor => unseen rows seen + cursor.isSome.toNat
  decreasing_by
    rename_i new
    cases stored : rows.get? cursor with
    | none =>
      have drop : unseen rows (cursor :: seen) ≤ unseen rows seen :=
        (List.monotone_filter_right _ fun r absent => by simp_all).length_le
      simp only [parentOf, stored, Option.bind_none, Option.isSome_none, Option.isSome_some,
        Bool.toNat_false, Bool.toNat_true]
      omega
    | some row =>
      have drop : unseen rows (cursor :: seen) < unseen rows seen :=
        unseen_lt (fun _ mem => List.mem_cons_of_mem cursor mem) (stored ▸ rfl) new
          List.mem_cons_self
      have := Bool.toNat_le (parentOf rows cursor).isSome
      simp only [Option.isSome_some, Bool.toNat_true]
      omega

def wouldCreateCycle (rows : Plan) (movingId candidateParentId : String) :
    Except ApiError Bool :=
  if movingId = candidateParentId then .ok true
  else
    climb rows movingId (collectDescendants rows [] [movingId]) [] (some candidateParentId)

/-- `content` and `status` are `none` where they are `undefined`; `parentId` is `none` where it is
`undefined` and `some none` where it is `null`. -/
structure UpdateInput where
  id : String
  content : Option String := none
  status : Option TodoStatus := none
  parentId : Option (Option String) := none

def checkNewParent (existing : Plan) (id : String) (parentId : String) : Except ApiError Unit :=
  match existing.get? parentId with
  | none => .error (.badRequest ("parentId \"" ++ parentId ++ "\" does not exist in this chat."))
  | some parent =>
    if parent.status = .completed then
      .error (.badRequest
        ("parentId \"" ++ parentId ++ "\" is completed; cannot attach as parent."))
    else do
      if ← wouldCreateCycle existing id parentId then
        throw (.badRequest ("Reparenting \"" ++ id ++ "\" under \"" ++ parentId ++
          "\" would create a cycle."))

/-- Why a status is not written: a child that is not completed, a sibling in progress. -/
def refuseStatus (existing : Plan) (id : String) (nextParentId : Option String) :
    Option TodoStatus → Option String
  | some .completed =>
    if (existing.find? fun _ row =>
        row.parentId == some id && row.status != .completed).isSome then
      some "children_open"
    else none
  | some .inProgress =>
    if (existing.find? fun other row =>
        other != id && row.parentId == nextParentId && row.status == .inProgress).isSome then
      some "sibling_in_progress"
    else none
  | some .pending | none => none

/-- What the update writes. -/
def writeData (now : Nat) (content : Option String) (nextParentId : Option String)
    (status : Option TodoStatus) (row : TodoRow) : TodoRow where
  parentId := nextParentId
  content := content.getD row.content
  status := status.getD row.status
  sortOrder := row.sortOrder
  createdAt := row.createdAt
  updatedAt := now
  completedAt := if status = some .completed then some now else row.completedAt

def checkReparent (existing : Plan) (id : String) :
    Option (Option String) → Except ApiError Unit
  | some (some candidate) => checkNewParent existing id candidate
  | some none | none => .ok ()

/-- The transaction of `handleUpdate`. -/
def updateRow (existing : Plan) (now : Nat) (id : String) (content : Option String)
    (status : Option TodoStatus) (parentId : Option (Option String)) :
    Except ApiError (Mutation × Plan) :=
  match existing.get? id with
  | none => .error (.notFound ("Todo \"" ++ id ++ "\" not found in this chat."))
  | some target =>
    if target.status = .completed then .ok (skip "completed_immutable" existing)
    else do
      checkReparent existing id parentId
      let nextParentId := parentId.getD target.parentId
      match refuseStatus existing id nextParentId status with
      | some reason => .ok (skip reason existing)
      | none =>
        .ok (applied none (existing.update id (writeData now content nextParentId status)))

def handleUpdate (existing : Plan) (draws : Draws) (payload : UpdateInput) :
    Except ApiError (Mutation × Plan) := do
  let content ← payload.content.mapM normalizeContent
  let parentId := payload.parentId.map normalizeOptionalParentId
  if content.isNone && payload.status.isNone && parentId.isNone then
    .error (.badRequest "update action requires at least one of content, status, parentId.")
  else updateRow existing draws.now payload.id content payload.status parentId

def handleComplete (existing : Plan) (draws : Draws) (id : String) :
    Except ApiError (Mutation × Plan) :=
  handleUpdate existing draws { id, status := some .completed }

/-! ## remove and clear -/

/-- A row whose parent is removed is removed, and the rows after it are looked at with it in the
set. -/
def growRemoved (removedIds : List String) (row : String × TodoRow) : List String :=
  if row.2.parentId.any (fun parentId => decide (parentId ∈ removedIds)) &&
      decide (row.1 ∉ removedIds) then
    removedIds ++ [row.1]
  else removedIds

/-- One round of `while (grew)`. -/
def removalRound (existing : Plan) (removedIds : List String) : List String :=
  existing.rows.foldl growRemoved removedIds

theorem mem_foldl_growRemoved {removedIds : List String} {rows : List (String × TodoRow)}
    {id : String} (old : id ∈ removedIds) : id ∈ rows.foldl growRemoved removedIds := by
  induction rows generalizing removedIds with
  | nil => exact old
  | cons row rows ih =>
    refine ih ?_
    unfold growRemoved
    split
    · exact List.mem_append_left _ old
    · exact old

/-- A round that adds an id adds one of a row. -/
theorem isSome_of_removalRound {existing : Plan} {removedIds : List String} {id : String}
    (new : id ∉ removedIds) (now : id ∈ removalRound existing removedIds) :
    (existing.get? id).isSome := by
  rw [← Option.not_isNone, Bool.not_eq_true', ← Bool.not_eq_true, Option.isNone_iff_eq_none,
    KeyedTable.get?_eq_none_iff, not_not]
  unfold removalRound at now
  generalize existing.rows = rows at now ⊢
  induction rows generalizing removedIds with
  | nil => exact absurd now new
  | cons row rows ih =>
    by_cases same : id = row.1
    · exact same ▸ List.mem_cons_self
    · refine List.mem_cons_of_mem _ (ih (fun mem => ?_) now)
      unfold growRemoved at mem
      split at mem
      · rcases List.mem_append.mp mem with old | last
        · exact new old
        · exact same (List.mem_singleton.mp last)
      · exact new mem

/-- The rows that `handleRemove` takes out of what it returns. -/
def removedClosure (existing : Plan) (removedIds : List String) : List String :=
  let next := removalRound existing removedIds
  if next.all (fun id => decide (id ∈ removedIds)) then next else removedClosure existing next
  termination_by unseen existing removedIds
  decreasing_by
    rename_i grew
    simp only [List.all_eq_true, decide_eq_true_eq, not_forall] at grew
    obtain ⟨id, now, new⟩ := grew
    exact unseen_lt (fun _ old => mem_foldl_growRemoved old) (isSome_of_removalRound new now) new
      now

/-- Does the row refer to a deleted row? -/
def orphaned (deleted : List String) (row : TodoRow) : Bool :=
  row.parentId.any fun parentId => decide (parentId ∈ deleted)

/-- `onDelete: Cascade`: the rows that refer to a deleted row are deleted, and then those that
refer to them. -/
def cascade (rows : Plan) (deleted : List String) : Plan :=
  let orphans := rows.select fun _ row => orphaned deleted row
  if orphans.isEmpty then rows
  else cascade (rows.deleteWhere fun _ row => orphaned deleted row) (orphans.map Prod.fst)
  termination_by rows.rows.length
  decreasing_by
    rename_i found
    simp only [List.isEmpty_iff] at found
    obtain ⟨orphan, mem⟩ := List.exists_mem_of_ne_nil _ found
    obtain ⟨stored, refers⟩ := List.mem_filter.mp mem
    exact List.length_filter_lt_length_iff_exists.mpr ⟨orphan, stored, by simp [refers]⟩

/-- `assistantChatTodo.delete`. -/
def deleteRow (rows : Plan) (id : String) : Plan :=
  cascade (rows.deleteWhere fun i _ => i == id) [id]

def handleRemove (existing : Plan) (id : String) : Except ApiError (Mutation × Plan) :=
  match existing.get? id with
  | none => .error (.notFound ("Todo \"" ++ id ++ "\" not found in this chat."))
  | some _ =>
    let removedIds := removedClosure existing [id]
    let finalRows := existing.rows.filter fun row => decide (row.1 ∉ removedIds)
    .ok (⟨.applied, none, none, finalRows⟩, deleteRow existing id)

def handleClear : Mutation × Plan := applied none ∅

/-! ## Actions -/

inductive Action where
  | add (items : List AddItemInput)
  | update (payload : UpdateInput)
  | complete (id : String)
  | remove (id : String)
  | clear

/-- An action and what it draws. -/
structure Event where
  action : Action
  draws : Draws

def applyAction (existing : Plan) (e : Event) : Except ApiError (Mutation × Plan) :=
  match e.action with
  | .add items => handleAdd existing e.draws items
  | .update payload => handleUpdate existing e.draws payload
  | .complete id => handleComplete existing e.draws id
  | .remove id => handleRemove existing id
  | .clear => .ok handleClear

/-- A transaction that throws is rolled back. -/
def step (plan : Plan) (e : Event) : Plan :=
  match applyAction plan e with
  | .ok (_, plan) => plan
  | .error _ => plan

end Persai.ChatTodos
