import Persai.ChatTodos.Invariant

/-!
# Runs of actions on a chat plan

What `add` creates row by row, what `remove` leaves, and then every sequence of actions from the
empty plan: the invariant holds in all its states if and only if no update doubles a row in
progress.
-/

namespace Persai.ChatTodos

open Forest Runs

variable {s s' : Plan}

/-! ## add -/

/-- The parent of a new row is a row that is not completed. -/
def AddItem.Hangs (item : AddItem) (s : Plan) : Prop :=
  ∀ p, item.parentId = some p → ∃ upper, s.get? p = some upper ∧ upper.status ≠ .completed

theorem normalizeAddItem_status {input : AddItemInput} {item : AddItem}
    (h : normalizeAddItem input = .ok item) : item.status ≠ .completed := by
  unfold normalizeAddItem at h
  cases content : normalizeContent input.content with
  | error e => rw [content] at h; cases h
  | ok content' =>
    rw [content] at h
    rcases input with ⟨text, parentId, _ | _ | _ | _⟩ <;> cases h <;> simp

theorem mapM_normalizeAddItem {inputs : List AddItemInput} {items : List AddItem}
    (h : inputs.mapM normalizeAddItem = .ok items) : ∀ item ∈ items, item.status ≠ .completed := by
  induction inputs generalizing items with
  | nil =>
    cases h
    simp
  | cons input inputs ih =>
    rw [List.mapM_cons] at h
    cases first : normalizeAddItem input with
    | error e => rw [first] at h; cases h
    | ok item =>
      cases others : inputs.mapM normalizeAddItem with
      | error e => rw [first, others] at h; cases h
      | ok rest =>
        rw [first, others] at h
        cases h
        intro other mem
        rcases List.mem_cons.mp mem with rfl | later
        · exact normalizeAddItem_status first
        · exact ih others other later

theorem forM_checkRequestedParent {parents : List String}
    (h : parents.forM (checkRequestedParent s) = .ok ()) :
    ∀ p ∈ parents, ∃ upper, s.get? p = some upper ∧ upper.status ≠ .completed := by
  induction parents with
  | nil => simp
  | cons p parents ih =>
    have unfolded : (checkRequestedParent s p >>= fun _ =>
        parents.forM (checkRequestedParent s)) = .ok () := h
    cases first : checkRequestedParent s p with
    | error e => rw [first] at unfolded; cases unfolded
    | ok _ =>
      rw [first] at unfolded
      intro q mem
      rcases List.mem_cons.mp mem with rfl | later
      · unfold checkRequestedParent at first
        cases stored : s.get? q with
        | none => rw [stored] at first; cases first
        | some upper =>
          refine ⟨upper, rfl, fun done => ?_⟩
          simp [stored, done] at first
      · exact ih unfolded q later

/-- Every bucket with a row in progress is marked. -/
theorem foldl_markInProgress (rows : List TodoRow) (busy : String → Bool) {bucket : String}
    (h : busy bucket = true ∨ ∃ row ∈ rows, row.status = .inProgress ∧
      bucketOf row.parentId = bucket) : rows.foldl markInProgress busy bucket = true := by
  induction rows generalizing busy with
  | nil => simpa using h
  | cons row rows ih =>
    refine ih (markInProgress busy row) ?_
    have keeps : busy bucket = true → markInProgress busy row bucket = true := by
      intro marked
      unfold markInProgress
      split
      · by_cases same : bucket = bucketOf row.parentId
        · rw [same, Function.update_self]
        · rw [Function.update_of_ne same, marked]
      · exact marked
    rcases h with marked | ⟨other, mem, started, here⟩
    · exact .inl (keeps marked)
    · rcases List.mem_cons.mp mem with rfl | later
      · left
        rw [markInProgress, if_pos started, here, Function.update_self]
      · exact .inr ⟨other, later, started, here⟩

/-- What the loop of `add` keeps, with `left` items to come. -/
structure AddState.Keeps (existing : Plan) (left : Nat) (a : AddState) : Prop where
  sound : Sound a.plan
  single : SingleInProgress a.plan
  kept : ∀ id row, existing.get? id = some row → a.plan.get? id = some row
  marked : ∀ id row, a.plan.get? id = some row → row.status = .inProgress →
    a.inProgressByParent (bucketOf row.parentId) = true
  room : a.plan.rows.length + left ≤ hardActiveCap

theorem AddState.Keeps.start {left : Nat} (sound : Sound s) (single : SingleInProgress s)
    (room : s.rows.length + left ≤ hardActiveCap) : (AddState.start s).Keeps s left where
  sound := sound
  single := single
  kept := fun _ _ stored => stored
  marked := by
    intro id row stored started
    refine foldl_markInProgress _ _ (.inr ⟨row, ?_, started, rfl⟩)
    exact List.mem_map.mpr ⟨(id, row), KeyedTable.get?_eq_some_iff.mp stored, rfl⟩
  room := room

/-- Nothing is within a row that is not there but itself. -/
theorem Sound.within_absent (sound : Sound s) {id p : String} (absent : s.get? id = none)
    (within : Within (parentOf s) p id) : p = id := by
  rcases Relation.ReflTransGen.cases_head within with same | ⟨child, link, -⟩
  · exact same.symm
  · have known := sound.linked child id link
    rw [absent] at known
    cases known

theorem newRow_not_completed (a : AddState) (draws : Draws) {item : AddItem}
    (started : item.status ≠ .completed) : (a.newRow draws item).status ≠ .completed := by
  unfold AddState.newRow
  dsimp only
  split
  · simp
  · exact started

/-- A new row is in progress only where none is marked. -/
theorem newRow_alone {a : AddState} {draws : Draws} {item : AddItem}
    (busy : (a.newRow draws item).status = .inProgress) :
    a.inProgressByParent (bucketOf item.parentId) = false := by
  unfold AddState.newRow at busy
  dsimp only at busy
  split at busy
  · cases busy
  · rename_i keeps
    simpa [AddState.coerces, busy] using keeps

/-- A new row hangs under an open one that is not within it. -/
theorem AddState.Keeps.parent {existing : Plan} {left : Nat} {a : AddState} {item : AddItem}
    (h : a.Keeps existing left) (hangs : item.Hangs existing) {id p : String}
    (absent : a.plan.get? id = none) (link : item.parentId = some p) :
    ¬ Within (parentOf a.plan) p id ∧
      ∃ upper, a.plan.get? p = some upper ∧ upper.status ≠ .completed := by
  obtain ⟨upper, stored, open'⟩ := hangs p link
  have known := h.kept p upper stored
  refine ⟨fun within => ?_, upper, known, open'⟩
  rw [h.sound.within_absent absent within, absent] at known
  cases known

theorem AddState.Keeps.createItem {existing : Plan} {left n : Nat} {a a' : AddState}
    {draws : Draws} {item : AddItem} (h : a.Keeps existing (left + 1)) (hangs : item.Hangs existing)
    (started : item.status ≠ .completed) (created : createItem draws n a item = .ok a') :
    a'.Keeps existing left := by
  unfold ChatTodos.createItem at created
  cases made : a.plan.create (draws.ids n) (a.newRow draws item) with
  | none => rw [made] at created; cases created
  | some plan =>
    rw [made] at created
    cases created
    obtain ⟨absent, grown⟩ := KeyedTable.create_eq_some_iff.mp made
    have wrote := KeyedTable.get?_create made
    have room := h.room
    have length : plan.rows.length = a.plan.rows.length + 1 := by
      rw [grown, List.length_append, List.length_singleton]
    exact {
      sound := by
        refine Sound.write wrote h.sound (by rw [length]; omega) (fun p link => ?_) fun done => ?_
        · obtain ⟨outside, upper, stored, open'⟩ := h.parent hangs absent link
          exact ⟨outside, upper, stored, fun done => absurd done open'⟩
        · exact absurd done (newRow_not_completed a draws started)
      single := by
        refine (single_write_iff wrote h.single).mpr fun busy other row' _ stored link busy' => ?_
        have mark := h.marked other row' stored busy'
        rw [link, show (a.newRow draws item).parentId = item.parentId from rfl,
          newRow_alone busy] at mark
        cases mark
      kept := by
        intro id row stored
        have known := h.kept id row stored
        rw [wrote, if_neg (fun same => by rw [same, absent] at known; cases known), known]
      marked := by
        intro id row stored busy
        refine foldl_markInProgress [a.newRow draws item] _ ?_
        rw [wrote] at stored
        split at stored
        · cases stored
          exact .inr ⟨_, List.mem_cons_self, busy, rfl⟩
        · exact .inl (h.marked id row stored busy)
      room := by rw [length]; omega }

theorem AddState.Keeps.createItems {existing : Plan} {n : Nat} {a a' : AddState} {draws : Draws}
    {items : List AddItem} (h : a.Keeps existing items.length)
    (hangs : ∀ item ∈ items, item.Hangs existing)
    (started : ∀ item ∈ items, item.status ≠ .completed)
    (created : ChatTodos.createItems draws n a items = .ok a') : a'.Keeps existing 0 := by
  induction items generalizing n a with
  | nil =>
    cases created
    exact h
  | cons item items ih =>
    rw [ChatTodos.createItems] at created
    cases first : ChatTodos.createItem draws n a item with
    | error e => rw [first] at created; cases created
    | ok next =>
      rw [first] at created
      have kept := h.createItem (hangs item List.mem_cons_self)
        (started item List.mem_cons_self) first
      refine ih kept (fun other mem => ?_) (fun other mem => ?_) created
      · exact hangs other (List.mem_cons_of_mem item mem)
      · exact started other (List.mem_cons_of_mem item mem)

theorem addRows_outcome (sound : Sound s) (single : SingleInProgress s) {draws : Draws}
    {items : List AddItem} (started : ∀ item ∈ items, item.status ≠ .completed) :
    Refused s (addRows s draws items) ∨ ∃ warning, ∃ a : AddState,
      a.Keeps s 0 ∧ addRows s draws items = .ok (applied warning a.plan) := by
  unfold addRows
  split
  · exact .inl (.inr ⟨_, rfl⟩)
  · rename_i room
    cases checked : (items.filterMap AddItem.parentId).forM (checkRequestedParent s) with
    | error e => exact .inl (.inl ⟨e, rfl⟩)
    | ok _ =>
      cases created : createItems draws 0 (.start s) items with
      | error e => exact .inl (.inl ⟨e, rfl⟩)
      | ok a =>
        refine .inr ⟨_, a, ?_, rfl⟩
        have start := AddState.Keeps.start sound single (Nat.le_of_not_lt room)
        refine start.createItems (fun item mem p link => ?_) started created
        exact forM_checkRequestedParent checked p (List.mem_filterMap.mpr ⟨item, mem, link⟩)

theorem handleAdd_outcome (sound : Sound s) (single : SingleInProgress s) (draws : Draws)
    (inputs : List AddItemInput) : Refused s (handleAdd s draws inputs) ∨ ∃ warning, ∃ a : AddState,
      a.Keeps s 0 ∧ handleAdd s draws inputs = .ok (applied warning a.plan) := by
  unfold handleAdd
  split
  · exact .inl (.inl ⟨_, rfl⟩)
  split
  · exact .inl (.inl ⟨_, rfl⟩)
  cases normal : inputs.mapM normalizeAddItem with
  | error e => exact .inl (.inl ⟨e, rfl⟩)
  | ok items => exact addRows_outcome sound single (mapM_normalizeAddItem normal)

/-! ## remove and clear -/

theorem length_cascade (rows : Plan) (deleted : List String) :
    (cascade rows deleted).rows.length ≤ rows.rows.length := by
  fun_induction cascade rows deleted with
  | case1 => exact Nat.le_refl _
  | case2 rows deleted orphans goesOn ih => exact Nat.le_trans ih (List.length_filter_le ..)

theorem Sound.deleteRow (sound : Sound s) (id : String) : Sound (deleteRow s id) := by
  have fewer : ∀ i p, parentOf (ChatTodos.deleteRow s id) i = some p → parentOf s i = some p := by
    intro i p link
    obtain ⟨row, kept, link⟩ := parentOf_eq_some_iff.mp link
    exact parentOf_eq_some_iff.mpr ⟨row, (get?_deleteRow.mp kept).1, link⟩
  exact {
    linked := by
      intro i p link
      obtain ⟨upper, above⟩ := Option.isSome_iff_exists.mp (sound.linked i p (fewer i p link))
      obtain ⟨row, kept, -⟩ := parentOf_eq_some_iff.mp link
      have outside := (get?_deleteRow.mp kept).2
      have stays : (ChatTodos.deleteRow s id).get? p = some upper :=
        get?_deleteRow.mpr ⟨above, fun within => outside (.step (fewer i p link) within)⟩
      exact stays ▸ rfl
    forest := isForest_of_le fewer sound.forest
    settled := by
      intro i p row upper kept link above done
      exact sound.settled i p row upper (get?_deleteRow.mp kept).1 link (get?_deleteRow.mp above).1
        done
    capped := by
      have removed : (s.deleteWhere fun i _ => i == id).rows.length ≤ s.rows.length :=
        List.length_filter_le ..
      exact Nat.le_trans (length_cascade _ _) (Nat.le_trans removed sound.capped) }

theorem SingleInProgress.deleteRow (single : SingleInProgress s) (id : String) :
    SingleInProgress (deleteRow s id) := by
  intro i j row row' kept kept' busy busy' sibling
  exact single i j row row' (get?_deleteRow.mp kept).1 (get?_deleteRow.mp kept').1 busy busy'
    sibling

theorem handleRemove_outcome (s : Plan) (id : String) : Refused s (handleRemove s id) ∨
    ∃ m, m.action = .applied ∧ handleRemove s id = .ok (m, deleteRow s id) := by
  unfold handleRemove
  split
  · exact .inl (.inl ⟨_, rfl⟩)
  · exact .inr ⟨_, rfl, rfl⟩

/-! ## Runs -/

/-- A completed row stays as it is; `remove` and `clear` may delete it. -/
def Frozen (s : Plan) (e : Event) : Prop :=
  ∀ id row, s.get? id = some row → row.status = .completed →
    (step s e).get? id = some row ∨
      (step s e).get? id = none ∧ ((∃ removed, e.action = .remove removed) ∨ e.action = .clear)

/-- An action that throws or is skipped leaves the plan as it is. -/
def Untouched (s : Plan) (e : Event) : Prop :=
  (∀ error, applyAction s e = .error error → step s e = s) ∧
    ∀ m plan, applyAction s e = .ok (m, plan) → m.action = .skipped → step s e = s

/-- The action is an update that doubles a row in progress. -/
def DoublesInProgress (s : Plan) (e : Event) : Prop :=
  ∃ payload, e.action = .update payload ∧ Doubles s payload

/-- What one action keeps. -/
structure Kept (s : Plan) (e : Event) : Prop where
  sound : Sound (step s e)
  single : SingleInProgress (step s e) ↔ ¬ DoublesInProgress s e
  frozen : Frozen s e
  untouched : Untouched s e

theorem kept_of_refused {e : Event} (sound : Sound s) (single : SingleInProgress s)
    (refused : Refused s (applyAction s e)) (fine : ¬ DoublesInProgress s e) : Kept s e := by
  have same : step s e = s := by
    unfold step
    rcases refused with ⟨error, refused⟩ | ⟨reason, refused⟩ <;> rw [refused]
    rfl
  exact {
    sound := by rw [same]; exact sound
    single := by rw [same]; exact iff_of_true single fine
    frozen := fun id row stored _ => .inl (by rw [same, stored])
    untouched := ⟨fun _ _ => same, fun _ _ _ _ => same⟩ }

theorem kept_of_applied {e : Event} {m : Mutation} {plan : Plan}
    (done : applyAction s e = .ok (m, plan)) (action : m.action = .applied) (sound : Sound plan)
    (single : SingleInProgress plan ↔ ¬ DoublesInProgress s e)
    (frozen : ∀ id row, s.get? id = some row → row.status = .completed →
      plan.get? id = some row ∨
        plan.get? id = none ∧ ((∃ removed, e.action = .remove removed) ∨ e.action = .clear)) :
    Kept s e := by
  have next : step s e = plan := by rw [step, done]
  exact {
    sound := by rw [next]; exact sound
    single := by rw [next]; exact single
    frozen := by rw [Frozen, next]; exact frozen
    untouched := by
      refine ⟨fun error failed => ?_, fun m' plan' skipped reason => ?_⟩
      · rw [done] at failed
        cases failed
      · rw [done] at skipped
        cases skipped
        rw [action] at reason
        cases reason }

theorem kept_update {payload : UpdateInput} {e : Event} (sound : Sound s)
    (single : SingleInProgress s)
    (updates : applyAction s e = handleUpdate s e.draws payload)
    (doubles : DoublesInProgress s e ↔ Doubles s payload) : Kept s e := by
  have outcome := handleUpdate_outcome s e.draws payload
  rcases outcome with refused | ⟨content, target, normal, passes, done⟩
  · refine kept_of_refused sound single (updates ▸ refused) fun twice => ?_
    exact (doubles.mp twice).not_refused sound refused
  · refine kept_of_applied (updates.trans done) rfl (sound.updateRow passes) ?_ ?_
    · rw [single_update_iff sound single normal passes, doubles]
    · intro id row stored finished
      left
      rw [get?_update_of_stored passes.stored, if_neg, stored]
      rintro rfl
      obtain rfl : target = row := Option.some.inj (passes.stored.symm.trans stored)
      exact passes.started finished

theorem not_doublesInProgress {e : Event} (h : ∀ payload, e.action ≠ .update payload) :
    ¬ DoublesInProgress s e := by
  rintro ⟨payload, update, -⟩
  exact h payload update

theorem kept_step (sound : Sound s) (single : SingleInProgress s) (e : Event) : Kept s e := by
  obtain ⟨action, draws⟩ := e
  cases action with
  | add inputs =>
    have fine : ¬ DoublesInProgress s ⟨.add inputs, draws⟩ := not_doublesInProgress nofun
    rcases handleAdd_outcome sound single draws inputs with refused | ⟨warning, a, keeps, done⟩
    · exact kept_of_refused sound single refused fine
    · exact kept_of_applied done rfl keeps.sound (iff_of_true keeps.single fine)
        fun id row stored _ => .inl (keeps.kept id row stored)
  | update payload =>
    refine kept_update sound single rfl ⟨?_, fun twice => ⟨payload, rfl, twice⟩⟩
    rintro ⟨other, same, twice⟩
    cases same
    exact twice
  | complete id =>
    refine kept_update sound single rfl (iff_of_false (not_doublesInProgress nofun) ?_)
    rintro ⟨content, target, newParent, other, row, -, silent, -⟩
    cases silent
  | remove id =>
    have fine : ¬ DoublesInProgress s ⟨.remove id, draws⟩ := not_doublesInProgress nofun
    rcases handleRemove_outcome s id with refused | ⟨m, action, done⟩
    · exact kept_of_refused sound single refused fine
    · refine kept_of_applied done action (sound.deleteRow id)
        (iff_of_true (single.deleteRow id) fine) fun i row stored _ => ?_
      by_cases within : Within (parentOf s) i id
      · refine .inr ⟨?_, .inl ⟨id, rfl⟩⟩
        refine Option.eq_none_iff_forall_ne_some.mpr fun other kept => ?_
        exact (get?_deleteRow.mp kept).2 within
      · exact .inl (get?_deleteRow.mpr ⟨stored, within⟩)
  | clear =>
    have fine : ¬ DoublesInProgress s ⟨.clear, draws⟩ := not_doublesInProgress nofun
    exact kept_of_applied rfl rfl sound_empty (iff_of_true single_empty fine)
      fun i row _ _ => .inr ⟨rfl, .inr rfl⟩

/-- From the empty plan, every sequence of actions keeps the invariant, changes no completed row
and leaves the plan alone where it is refused, if and only if no update of it doubles a row in
progress. -/
theorem plan_invariant_iff (es : List Event) :
    (EveryState step PlanInvariant ∅ es ∧
        EveryStep step (fun s e => Frozen s e ∧ Untouched s e) ∅ es) ↔
      EveryStep step (fun s e => ¬ DoublesInProgress s e) ∅ es := by
  refine everyState_and_everyStep_iff (I := fun _ => True) (H := fun _ _ => True)
    (fun _ _ _ => trivial) (fun s e _ good _ => ?_) trivial
    (planInvariant_iff.mpr ⟨sound_empty, single_empty⟩)
    (everyStep_of_forall (fun _ _ => trivial) _ _)
  obtain ⟨sound, single⟩ := planInvariant_iff.mp good
  have kept := kept_step sound single e
  rw [planInvariant_iff, ← kept.single]
  exact ⟨fun h => h.1.2, fun h => ⟨⟨kept.sound, h⟩, kept.frozen, kept.untouched⟩⟩

/-- A step and one under it are in progress; the lower one is moved to the top without a status. -/
def movedToTheTop : List Event :=
  [⟨.add [⟨"Write the report", none, some .inProgress⟩], fun _ => "report", 1, 1⟩,
    ⟨.add [⟨"Collect the figures", some "report", some .inProgress⟩], fun _ => "figures", 2, 2⟩,
    ⟨.update { id := "figures", parentId := some none }, fun _ => "", 3, 3⟩]

theorem moved_row_is_second_in_progress :
    ¬ (EveryState step PlanInvariant ∅ movedToTheTop ∧
        EveryStep step (fun s e => Frozen s e ∧ Untouched s e) ∅ movedToTheTop) := by
  rintro ⟨states, -⟩
  have same := states.last.single "report" "figures"
    ⟨none, "Write the report", .inProgress, 1, 1, 1, none⟩
    ⟨none, "Collect the figures", .inProgress, 1, 2, 3, none⟩
    (by decide +kernel) (by decide +kernel) rfl rfl rfl
  exact absurd same (by decide)

end Persai.ChatTodos
