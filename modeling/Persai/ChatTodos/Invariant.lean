import Persai.ChatTodos.Ancestry
import Persai.Runs

/-!
# The invariant of a chat plan

Every action keeps the parent links a forest over rows of the plan, a completed row as it is with
only completed rows below it, and the plan under the cap. The one rule that an action can break is
that of a single row in progress per parent: an update that moves a row in progress and gives no
status does not look at the siblings it comes to.
-/

namespace Persai.ChatTodos

open Forest Runs

/-- Two rows in progress have different parents. -/
def SingleInProgress (s : Plan) : Prop :=
  ∀ id other row row', s.get? id = some row → s.get? other = some row' →
    row.status = .inProgress → row'.status = .inProgress → row.parentId = row'.parentId → id = other

/-- The plan of a chat is as it should be. -/
structure PlanInvariant (s : Plan) : Prop where
  linked : ∀ id parentId, parentOf s id = some parentId → (s.get? parentId).isSome
  forest : IsForest (parentOf s)
  single : SingleInProgress s
  closed : ∀ id other row row', s.get? id = some row → row.status = .completed →
    s.get? other = some row' → Below (parentOf s) other id → row'.status = .completed
  capped : s.rows.length ≤ hardActiveCap

/-- What every action keeps. -/
structure Sound (s : Plan) : Prop where
  linked : ∀ id parentId, parentOf s id = some parentId → (s.get? parentId).isSome
  forest : IsForest (parentOf s)
  settled : ∀ id parentId row parent, s.get? id = some row → row.parentId = some parentId →
    s.get? parentId = some parent → parent.status = .completed → row.status = .completed
  capped : s.rows.length ≤ hardActiveCap

variable {s s' : Plan}

theorem parentOf_eq_some_iff {id p : String} :
    parentOf s id = some p ↔ ∃ row, s.get? id = some row ∧ row.parentId = some p :=
  Option.bind_eq_some_iff

/-- What is below a completed row is completed, as each parent settles its children. -/
theorem Sound.closed (sound : Sound s) {id other : String} {row row' : TodoRow}
    (stored : s.get? id = some row) (done : row.status = .completed)
    (stored' : s.get? other = some row') (below : Below (parentOf s) other id) :
    row'.status = .completed := by
  induction below generalizing row' with
  | single link =>
    obtain ⟨child, here, link⟩ := parentOf_eq_some_iff.mp link
    obtain rfl : child = row' := Option.some.inj (here.symm.trans stored')
    exact sound.settled _ _ child row here link stored done
  | @tail parent other _ link ih =>
    obtain ⟨child, here, link⟩ := parentOf_eq_some_iff.mp link
    obtain rfl : child = row' := Option.some.inj (here.symm.trans stored')
    obtain ⟨upper, above⟩ := Option.isSome_iff_exists.mp
      (sound.linked other parent (parentOf_eq_some_iff.mpr ⟨child, here, link⟩))
    exact sound.settled other parent child upper here link above (ih above)

theorem planInvariant_iff : PlanInvariant s ↔ Sound s ∧ SingleInProgress s := by
  constructor
  · intro h
    refine ⟨⟨h.linked, h.forest, ?_, h.capped⟩, h.single⟩
    intro id parentId row parent stored link above done
    exact h.closed parentId id parent row above done stored
      (.single (parentOf_eq_some_iff.mpr ⟨row, stored, link⟩))
  · rintro ⟨sound, single⟩
    exact ⟨sound.linked, sound.forest, single,
      fun _ _ _ _ stored done stored' below => sound.closed stored done stored' below,
      sound.capped⟩

theorem sound_empty : Sound ∅ where
  linked := by intro id parentId link; cases link
  forest := isForest_none
  settled := by intro id parentId row parent stored; cases stored
  capped := Nat.zero_le _

theorem single_empty : SingleInProgress ∅ := by
  intro id other row row' stored
  cases stored

/-! ## One row written -/

section
variable {id : String} {row : TodoRow}
  (wrote : ∀ i, s'.get? i = if i = id then some row else s.get? i)
include wrote

theorem parentOf_of_wrote : parentOf s' = Function.update (parentOf s) id row.parentId := by
  funext i
  by_cases same : i = id
  · subst same
    rw [parentOf, wrote, if_pos rfl, Function.update_self, Option.bind_some]
  · rw [parentOf, wrote, if_neg same, Function.update_of_ne same, parentOf]

/-- A row may be written under a parent that is a row outside it and, if the parent is completed,
is completed too; a completed row only over completed children. -/
theorem Sound.write (sound : Sound s) (capped : s'.rows.length ≤ hardActiveCap)
    (parent : ∀ p, row.parentId = some p → ¬ Within (parentOf s) p id ∧
      ∃ upper, s.get? p = some upper ∧ (upper.status = .completed → row.status = .completed))
    (children : row.status = .completed → ∀ i child, s.get? i = some child →
      child.parentId = some id → child.status = .completed) : Sound s' where
  linked := by
    intro i p link
    have known : (s.get? p).isSome := by
      rw [parentOf_of_wrote wrote] at link
      by_cases same : i = id
      · rw [same, Function.update_self] at link
        obtain ⟨-, upper, above, -⟩ := parent p link
        exact above ▸ rfl
      · rw [Function.update_of_ne same] at link
        exact sound.linked i p link
    rw [wrote]
    split
    · rfl
    · exact known
  forest := by
    rw [parentOf_of_wrote wrote]
    exact isForest_update sound.forest fun p link => (parent p link).1
  settled := by
    intro i p child upper stored link above done
    rw [wrote] at stored above
    by_cases same : i = id
    · rw [if_pos same, Option.some.injEq] at stored
      subst stored
      obtain ⟨outside, upper', above', settles⟩ := parent p link
      have apart : p ≠ id := fun same => outside (same ▸ .refl p)
      rw [if_neg apart, above', Option.some.injEq] at above
      exact settles (above ▸ done)
    · rw [if_neg same] at stored
      by_cases top : p = id
      · rw [if_pos top, Option.some.injEq] at above
        subst above
        exact children done i child stored (top ▸ link)
      · rw [if_neg top] at above
        exact sound.settled i p child upper stored link above done
  capped := capped

theorem single_write_iff (single : SingleInProgress s) :
    SingleInProgress s' ↔ (row.status = .inProgress → ∀ other row', other ≠ id →
      s.get? other = some row' → row'.parentId = row.parentId → row'.status ≠ .inProgress) := by
  constructor
  · intro h busy other row' different stored sibling busy'
    have here : s'.get? id = some row := by rw [wrote, if_pos rfl]
    have there : s'.get? other = some row' := by rw [wrote, if_neg different, stored]
    exact different (h other id row' row there here busy' busy sibling)
  · intro h i j r r' stored stored' busy busy' sibling
    rw [wrote] at stored stored'
    by_cases first : i = id <;> by_cases second : j = id
    · rw [first, second]
    · rw [if_pos first, Option.some.injEq] at stored
      rw [if_neg second] at stored'
      subst stored
      exact absurd busy' (h busy j r' second stored' sibling.symm)
    · rw [if_neg first] at stored
      rw [if_pos second, Option.some.injEq] at stored'
      subst stored'
      exact absurd busy (h busy' i r first stored sibling)
    · rw [if_neg first] at stored
      rw [if_neg second] at stored'
      exact single i j r r' stored stored' busy busy' sibling

end

/-! ## update -/

/-- The transaction throws or gives the plan back as it was. -/
def Refused (s : Plan) (result : Except ApiError (Mutation × Plan)) : Prop :=
  (∃ e, result = .error e) ∨ ∃ reason, result = .ok (skip reason s)

/-- The checks that an update passes. -/
structure Passes (s : Plan) (id : String) (status : Option TodoStatus)
    (parentId : Option (Option String)) (target : TodoRow) : Prop where
  stored : s.get? id = some target
  started : target.status ≠ .completed
  parent : checkReparent s id parentId = .ok ()
  status : refuseStatus s id (parentId.getD target.parentId) status = none

section
variable {id : String} {now : Nat} {content : Option String} {status : Option TodoStatus}
  {parentId : Option (Option String)} {target : TodoRow}

theorem updateRow_of_passes (h : Passes s id status parentId target) :
    updateRow s now id content status parentId = .ok (applied none
      (s.update id (writeData now content (parentId.getD target.parentId) status))) := by
  simp only [updateRow, h.stored, if_neg h.started, h.parent, h.status]
  rfl

theorem updateRow_refused_or_passes (s : Plan) (id : String) (now : Nat) (content : Option String)
    (status : Option TodoStatus) (parentId : Option (Option String)) :
    Refused s (updateRow s now id content status parentId) ∨
      ∃ target, Passes s id status parentId target := by
  unfold updateRow
  cases stored : s.get? id with
  | none => exact .inl (.inl ⟨_, rfl⟩)
  | some target =>
    by_cases started : target.status = .completed
    · exact .inl (.inr ⟨_, if_pos started⟩)
    · cases parent : checkReparent s id parentId with
      | error e => exact .inl (.inl ⟨e, if_neg started⟩)
      | ok _ =>
        cases refused : refuseStatus s id (parentId.getD target.parentId) status with
        | none => exact .inr ⟨target, stored, started, parent, refused⟩
        | some reason =>
          refine .inl (.inr ⟨reason, (if_neg started).trans ?_⟩)
          simp only [bind, Except.bind, refused]

/-- Under a new parent that passes the check a row makes no cycle and joins no completed row. -/
theorem checkReparent_eq_ok_iff (forest : IsForest (parentOf s)) :
    checkReparent s id parentId = .ok () ↔ ∀ candidate, parentId = some (some candidate) →
      ∃ upper, s.get? candidate = some upper ∧ upper.status ≠ .completed ∧
        ¬ Within (parentOf s) candidate id := by
  rcases parentId with _ | _ | candidate
  · simp [checkReparent]
  · simp [checkReparent]
  · simp only [checkReparent, Option.some.injEq, forall_eq']
    unfold checkNewParent
    cases s.get? candidate with
    | none => simp
    | some upper =>
      by_cases done : upper.status = .completed
      · simp [done]
      · simp only [Option.some.injEq, exists_eq_left', ne_eq, done, not_false_eq_true, true_and]
        rw [← wouldCreateCycle_eq_false_iff forest]
        cases wouldCreateCycle s id candidate with
        | error e => simp [bind, Except.bind]
        | ok cycle => cases cycle <;> simp [bind, Except.bind, throw, throwThe, MonadExceptOf.throw,
            pure, Except.pure]

theorem refuseStatus_eq_none_iff {nextParentId : Option String} :
    refuseStatus s id nextParentId status = none ↔
      (status = some .completed → ∀ i child, s.get? i = some child →
        child.parentId = some id → child.status = .completed) ∧
      (status = some .inProgress → ∀ other row, other ≠ id → s.get? other = some row →
        row.parentId = nextParentId → row.status ≠ .inProgress) := by
  rcases status with _ | _ | _ | _
  · simp [refuseStatus]
  · simp [refuseStatus]
  · simp only [refuseStatus, ite_eq_right_iff, reduceCtorEq, imp_false, Bool.not_eq_true,
      Option.isSome_eq_false_iff, Option.isNone_iff_eq_none, KeyedTable.find?_eq_none_iff,
      Option.some.injEq, false_implies, true_and, true_implies, Bool.and_eq_false_imp,
      Bool.and_eq_true, bne_iff_ne, beq_iff_eq, beq_eq_false_iff_ne, and_imp]
    exact forall₂_congr fun other row => imp.swap
  · simp only [refuseStatus, ite_eq_right_iff, reduceCtorEq, imp_false, Bool.not_eq_true,
      Option.isSome_eq_false_iff, Option.isNone_iff_eq_none, KeyedTable.find?_eq_none_iff,
      Option.some.injEq, false_implies, and_true, true_implies, Bool.and_eq_false_imp, beq_iff_eq,
      bne_eq_false_iff_eq]

theorem get?_update_of_stored (stored : s.get? id = some target) (f : TodoRow → TodoRow)
    (i : String) : (s.update id f).get? i = if i = id then some (f target) else s.get? i := by
  rw [KeyedTable.get?_update]
  by_cases same : i = id
  · rw [if_pos same, if_pos same, same, stored, Option.map_some]
  · rw [if_neg same, if_neg same]

theorem Sound.updateRow (sound : Sound s) (h : Passes s id status parentId target) :
    Sound (s.update id (writeData now content (parentId.getD target.parentId) status)) := by
  obtain ⟨settles, -⟩ := refuseStatus_eq_none_iff.mp h.status
  refine Sound.write (get?_update_of_stored h.stored _) sound ?_ ?_ ?_
  · rw [KeyedTable.update, KeyedTable.length_updateWhere]
    exact sound.capped
  · intro p link
    cases moved : parentId with
    | none =>
      rw [moved] at link
      have above : parentOf s id = some p := parentOf_eq_some_iff.mpr ⟨target, h.stored, link⟩
      obtain ⟨upper, stored⟩ := Option.isSome_iff_exists.mp (sound.linked id p above)
      refine ⟨sound.forest.not_within_of_parent above, upper, stored, fun done => ?_⟩
      exact absurd (sound.settled id p target upper h.stored link stored done) h.started
    | some newParent =>
      rw [moved] at link
      have here : newParent = some p := link
      obtain ⟨upper, stored, open', outside⟩ :=
        (checkReparent_eq_ok_iff sound.forest).mp h.parent p (moved.trans (congrArg some here))
      exact ⟨outside, upper, stored, fun done => absurd done open'⟩
  · intro done i child stored link
    cases given : status with
    | none =>
      rw [given] at done
      exact absurd done h.started
    | some next =>
      rw [given] at done
      exact settles (given.trans (congrArg some done)) i child stored link

/-- The update doubles a row in progress: it moves one, gives no status, and there is another
where it goes. -/
def Doubles (s : Plan) (payload : UpdateInput) : Prop :=
  ∃ content target newParent other row,
    payload.content.mapM normalizeContent = .ok content ∧ payload.status = none ∧
      payload.parentId.map normalizeOptionalParentId = some newParent ∧
      s.get? payload.id = some target ∧ target.status = .inProgress ∧
      (∀ candidate, newParent = some candidate →
        wouldCreateCycle s payload.id candidate = .ok false) ∧
      other ≠ payload.id ∧ s.get? other = some row ∧ row.parentId = newParent ∧
      row.status = .inProgress

end

/-- An update that doubles a row in progress passes every check. -/
theorem Doubles.passes {payload : UpdateInput} (sound : Sound s) (h : Doubles s payload) :
    ∃ target, Passes s payload.id payload.status
      (payload.parentId.map normalizeOptionalParentId) target := by
  obtain ⟨content, target, newParent, other, row, -, silent, moved, stored, busy, noCycle, -, there,
    link, busy'⟩ := h
  refine ⟨target, stored, by rw [busy]; simp, ?_, ?_⟩
  · rw [checkReparent_eq_ok_iff sound.forest, moved]
    intro candidate same
    have here : newParent = some candidate := Option.some.inj same
    rw [here] at link
    obtain ⟨upper, above⟩ := Option.isSome_iff_exists.mp
      (sound.linked other candidate (parentOf_eq_some_iff.mpr ⟨row, there, link⟩))
    refine ⟨upper, above, fun done => ?_,
      (wouldCreateCycle_eq_false_iff sound.forest).mp (noCycle candidate here)⟩
    rw [sound.settled other candidate row upper there link above done] at busy'
    cases busy'
  · rw [silent]
    rfl

theorem single_update_iff {payload : UpdateInput} {target : TodoRow} {content : Option String}
    {now : Nat} (sound : Sound s) (single : SingleInProgress s)
    (normal : payload.content.mapM normalizeContent = .ok content)
    (h : Passes s payload.id payload.status (payload.parentId.map normalizeOptionalParentId)
      target) :
    SingleInProgress (s.update payload.id (writeData now content
        ((payload.parentId.map normalizeOptionalParentId).getD target.parentId) payload.status)) ↔
      ¬ Doubles s payload := by
  obtain ⟨-, alone⟩ := refuseStatus_eq_none_iff.mp h.status
  rw [single_write_iff (get?_update_of_stored h.stored _) single]
  constructor
  · rintro keeps ⟨-, row, newParent, other, row', -, silent, moved, stored, busy, -, different,
      there, link, busy'⟩
    obtain rfl : row = target := Option.some.inj (stored.symm.trans h.stored)
    refine keeps ?_ other row' different there ?_ busy'
    · simpa [writeData, silent] using busy
    · simpa [writeData, moved] using link
  · intro good busy other row' different there link
    cases given : payload.status with
    | some next =>
      have same : next = .inProgress := by simpa [writeData, given] using busy
      exact alone (given.trans (congrArg some same)) other row' different there link
    | none =>
      have started : target.status = .inProgress := by simpa [writeData, given] using busy
      intro busy'
      cases moved : payload.parentId.map normalizeOptionalParentId with
      | none =>
        have sibling : row'.parentId = target.parentId := by simpa [writeData, moved] using link
        have same := single other payload.id row' target there h.stored busy' started sibling
        exact different same
      | some newParent =>
        have sibling : row'.parentId = newParent := by simpa [writeData, moved] using link
        have noCycle : ∀ candidate, newParent = some candidate →
            wouldCreateCycle s payload.id candidate = .ok false := by
          intro candidate here
          obtain ⟨-, -, -, outside⟩ := (checkReparent_eq_ok_iff sound.forest).mp h.parent candidate
            (moved.trans (congrArg some here))
          exact (wouldCreateCycle_eq_false_iff sound.forest).mpr outside
        exact good ⟨content, target, newParent, other, row', normal, given, moved, h.stored,
          started, noCycle, different, there, sibling, busy'⟩

theorem handleUpdate_outcome (s : Plan) (draws : Draws) (payload : UpdateInput) :
    Refused s (handleUpdate s draws payload) ∨ ∃ content target,
      payload.content.mapM normalizeContent = .ok content ∧
      Passes s payload.id payload.status (payload.parentId.map normalizeOptionalParentId) target ∧
      handleUpdate s draws payload = .ok (applied none (s.update payload.id
        (writeData draws.now content
          ((payload.parentId.map normalizeOptionalParentId).getD target.parentId)
          payload.status))) := by
  unfold handleUpdate
  cases normal : payload.content.mapM normalizeContent with
  | error e => exact .inl (.inl ⟨e, rfl⟩)
  | ok content =>
    simp only [bind, Except.bind]
    split
    · exact .inl (.inl ⟨_, rfl⟩)
    · rcases updateRow_refused_or_passes s payload.id draws.now content payload.status
        (payload.parentId.map normalizeOptionalParentId) with refused | ⟨target, h⟩
      · exact .inl refused
      · exact .inr ⟨content, target, rfl, h, updateRow_of_passes h⟩

theorem Refused.not_applied {result : Except ApiError (Mutation × Plan)} {warning : Option String}
    {plan : Plan} (h : Refused s result) : result ≠ .ok (applied warning plan) := by
  rintro rfl
  rcases h with ⟨e, h⟩ | ⟨reason, h⟩ <;> cases h

/-- An update that doubles a row in progress is applied. -/
theorem Doubles.not_refused {payload : UpdateInput} {draws : Draws} (sound : Sound s)
    (h : Doubles s payload) : ¬ Refused s (handleUpdate s draws payload) := by
  obtain ⟨target, passes⟩ := h.passes sound
  obtain ⟨content, -, newParent, -, -, normal, -, moved, -⟩ := h
  intro refused
  rw [handleUpdate, normal] at refused
  simp only [bind, Except.bind, moved, Option.isNone_some, Bool.and_false, Bool.false_eq_true,
    if_false] at refused
  rw [← moved, updateRow_of_passes passes] at refused
  exact refused.not_applied rfl

end Persai.ChatTodos
