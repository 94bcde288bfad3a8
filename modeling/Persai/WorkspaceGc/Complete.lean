import Mathlib.Data.List.Nodup
import Mathlib.Data.List.Pairwise
import Mathlib.Tactic.SplitIfs
import Persai.Runs
import Persai.WorkspaceGc.Purge

/-!
# When a lease is closed, its subtree is gone

A purge deletes nothing but its own subtree, whatever fails (`Effect`). It closes the lease last;
what was to be deleted before is gone by then, unless a deletion threw whose error is caught.
-/

namespace Persai.WorkspaceGc

open Faults Runs

section

variable (mediaPrefix : Name)

/-! ## Subtrees -/

/-- The object is of the lease's subtree, or a snapshot of its session. -/
def ownsObject (lease : Lease) (key : Name) : Bool :=
  match lease.kind with
  | .sessionSubtree (some metadata) =>
    match metadata.sessionId with
    | some sessionId =>
      (workspacePrefix mediaPrefix metadata.workspaceId
          (some (sessionRoot metadata.assistantId sessionId))).isPrefixOf key ||
        (snapshotPrefix mediaPrefix metadata.assistantId (some sessionId)).isPrefixOf key
    | none => (snapshotPrefix mediaPrefix metadata.assistantId none).isPrefixOf key
  | .assistantSubtree (some metadata) =>
    (workspacePrefix mediaPrefix metadata.workspaceId
      (some (assistantRoot metadata.assistantId))).isPrefixOf key
  | .workspaceSubtree (some _) =>
    (workspacePrefix mediaPrefix lease.targetId none).isPrefixOf key
  | _ => false

def ownsRow (lease : Lease) (row : Row) : Bool :=
  match lease.kind with
  | .sessionSubtree (some metadata) =>
    match metadata.sessionId with
    | some sessionId => rowUnder metadata.workspaceId
        (sessionRoot metadata.assistantId sessionId ++ ['/']) row
    | none => false
  | .assistantSubtree (some metadata) =>
    rowUnder metadata.workspaceId (assistantRoot metadata.assistantId ++ ['/']) row
  | .workspaceSubtree (some _) => rowUnder lease.targetId "/workspace/".toList row
  | _ => false

/-- No deletion whose error is caught throws. -/
def Clean (answers : Answers) (lease : Lease) : Prop :=
  match lease.kind with
  | .sessionSubtree _ => answers.deleteSnapshots = .returns
  | _ => answers.deletePrefix = .returns

def Deletion.isReturn : Deletion → Bool
  | .returns => true
  | .throws _ _ => false

/-- The metadata of the lease is accepted, and no call throws that would end its purge before the
lease is closed. -/
def reachesClose (answers : Answers) (lease : Lease) : Bool :=
  let listed := answers.listPods.isOk && decide (answers.deleteRows = .returns)
  answers.markPurged.effective &&
    match lease.kind with
    | .sessionSubtree (some metadata) =>
      answers.deletePrefix.isReturn && (metadata.sessionId.isNone || listed)
    | .assistantSubtree (some _) => listed
    | .workspaceSubtree (some _) => listed
    | _ => false

/-! ## One purge -/

/-- What a purge may have done. -/
structure Effect (lease : Lease) (now : ℕ) (clean : Prop) (s s' : Store) : Prop where
  objects : ∀ key ∈ s'.objects, key ∈ s.objects
  objectsKept : ∀ key ∈ s.objects, ownsObject mediaPrefix lease key = false → key ∈ s'.objects
  rows : ∀ row ∈ s'.rows, row ∈ s.rows
  rowsKept : ∀ row ∈ s.rows, ownsRow lease row = false → row ∈ s'.rows
  leases : s'.leases = s.leases ∨
    s'.leases = (s.closeLease lease.id now).leases ∧
      (clean → ∀ key ∈ s'.objects, ownsObject mediaPrefix lease key = false) ∧
      ∀ row ∈ s'.rows, ownsRow lease row = false

variable {mediaPrefix}

theorem effect_shrink (lease : Lease) (now : ℕ) (clean : Prop) (s : Store)
    {keepObject : Name → Bool} {keepRow : Row → Bool}
    (objects : ∀ key, keepObject key = false → ownsObject mediaPrefix lease key)
    (rows : ∀ row, keepRow row = false → ownsRow lease row) :
    Effect mediaPrefix lease now clean s (s.shrink keepObject keepRow) where
  objects _ mem := List.mem_of_mem_filter mem
  objectsKept key mem other := by
    refine List.mem_filter.mpr ⟨mem, ?_⟩
    by_contra dropped
    rw [objects key (Bool.not_eq_true _ ▸ dropped)] at other
    cases other
  rows _ mem := List.mem_of_mem_filter mem
  rowsKept row mem other := by
    refine List.mem_filter.mpr ⟨mem, ?_⟩
    by_contra dropped
    rw [rows row (Bool.not_eq_true _ ▸ dropped)] at other
    cases other
  leases := .inl rfl

theorem effect_close (lease : Lease) (now : ℕ) (clean : Prop) (s : Store)
    {keepObject : Name → Bool} {keepRow : Row → Bool}
    (objects : ∀ key, keepObject key = false → ownsObject mediaPrefix lease key)
    (rows : ∀ row, keepRow row = false → ownsRow lease row)
    (gone : clean → ∀ key, keepObject key → ownsObject mediaPrefix lease key = false)
    (goneRows : ∀ row, keepRow row → ownsRow lease row = false) :
    Effect mediaPrefix lease now clean s
      ((s.shrink keepObject keepRow).closeLease lease.id now) where
  objects := (effect_shrink lease now clean s objects rows).objects
  objectsKept := (effect_shrink lease now clean s objects rows).objectsKept
  rows := (effect_shrink lease now clean s objects rows).rows
  rowsKept := (effect_shrink lease now clean s objects rows).rowsKept
  leases := .inr ⟨rfl, fun isClean key mem => gone isClean key (List.mem_filter.mp mem).2,
    fun row mem => goneRows row (List.mem_filter.mp mem).2⟩

theorem Store.shrink_shrink (s : Store) (keepObject keepObject' : Name → Bool)
    (keepRow keepRow' : Row → Bool) :
    (s.shrink keepObject keepRow).shrink keepObject' keepRow' =
      s.shrink (fun key => keepObject key && keepObject' key)
        fun row => keepRow row && keepRow' row := by
  simp only [Store.shrink, List.filter_filter, Bool.and_comm]

theorem Store.shrink_all (s : Store) : s.shrink (fun _ => true) (fun _ => true) = s := by
  simp only [Store.shrink, List.filter_true]

/-- What a deletion keeps. -/
def Deletion.keeps (deletion : Deletion) (base key : Name) : Bool :=
  !base.isPrefixOf key ||
    match deletion with
    | .returns => false
    | .throws _ survives => survives key

theorem ends_deletePrefix {Q : Unit → Store → Prop} {E : String → Store → Prop}
    {deletion : Deletion} {base : Name} {s : Store} :
    Ends Q E (deletePrefix deletion base) s ↔
      match deletion with
      | .returns => Q () (s.shrink (deletion.keeps base) fun _ => true)
      | .throws error _ => E error (s.shrink (deletion.keeps base) fun _ => true) := by
  cases deletion with
  | returns =>
    have keeps : Deletion.returns.keeps base = fun key => !base.isPrefixOf key :=
      funext fun key => Bool.or_false _
    dsimp only
    rw [keeps]
    exact Iff.rfl
  | throws => exact Iff.rfl

/-- A deletion whose error is caught. -/
theorem ends_caught_deletePrefix {Q : Unit → Store → Prop} {E : String → Store → Prop}
    {deletion : Deletion} {base : Name} {s : Store} :
    Ends Q E (caught (deletePrefix deletion base)) s ↔
      Q () (s.shrink (deletion.keeps base) fun _ => true) := by
  rw [caught, ends_tryCatch, ends_deletePrefix]
  cases deletion <;> exact Iff.rfl

theorem Deletion.not_keeps {deletion : Deletion} {base key : Name}
    (dropped : deletion.keeps base key = false) : base.isPrefixOf key = true := by
  unfold Deletion.keeps at dropped
  rw [Bool.or_eq_false_iff, Bool.not_eq_false'] at dropped
  exact dropped.1

theorem Deletion.keeps_returns {base key : Name} (kept : Deletion.returns.keeps base key) :
    base.isPrefixOf key = false := by
  simpa [Deletion.keeps] using kept

section

variable {lease : Lease} {now : ℕ} {answers : Answers} {clean : Prop} {s : Store}
  {keepObject : Name → Bool}

/-- The end of a purge: the rows are deleted and the lease is closed. -/
theorem closing_effect {workspaceId base : Name}
    (objects : ∀ key, keepObject key = false → ownsObject mediaPrefix lease key)
    (gone : clean → ∀ key, keepObject key → ownsObject mediaPrefix lease key = false)
    (rows : ∀ row, ownsRow lease row = rowUnder workspaceId base row) :
    Ends (fun _ => Effect mediaPrefix lease now clean s)
      (fun _ => Effect mediaPrefix lease now clean s)
      (do
        ask answers.listPods
        deleteRows answers.deleteRows workspaceId base
        statement answers.markPurged (Store.closeLease lease.id now))
      (s.shrink keepObject fun _ => true) := by
  have ownRows (row : Row) (dropped : (true && !rowUnder workspaceId base row) = false) :
      ownsRow lease row := by
    rw [rows]
    simpa using dropped
  have goneRows (row : Row) (kept : true && !rowUnder workspaceId base row) :
      ownsRow lease row = false := by
    rw [rows]
    simpa using kept
  have unclosed : Effect mediaPrefix lease now clean s (s.shrink keepObject fun _ => true) :=
    effect_shrink lease now clean s objects fun _ never => absurd never (by decide)
  have shrunk : Effect mediaPrefix lease now clean s
      ((s.shrink keepObject fun _ => true).shrink (fun _ => true)
        fun row => !rowUnder workspaceId base row) := by
    rw [Store.shrink_shrink]
    exact effect_shrink lease now clean s (fun key dropped => objects key (by simpa using dropped))
      ownRows
  have closed : Effect mediaPrefix lease now clean s
      (((s.shrink keepObject fun _ => true).shrink (fun _ => true)
        fun row => !rowUnder workspaceId base row).closeLease lease.id now) := by
    rw [Store.shrink_shrink]
    exact effect_close lease now clean s (fun key dropped => objects key (by simpa using dropped))
      ownRows (fun isClean key kept => gone isClean key (by simpa using kept)) goneRows
  rw [ends_bind, ends_ask]
  split
  · rw [ends_bind, deleteRows, ends_statement]
    split
    · rw [ends_statement]
      split
      · exact closed
      · split_ifs
        · exact closed
        · exact shrunk
    · split_ifs
      · exact shrunk
      · exact unclosed
  · exact unclosed

theorem effect_nothing : Effect mediaPrefix lease now clean s s := by
  have kept {α : Type} (a : α) (never : true = false) : False := absurd never (by decide)
  have same : Effect mediaPrefix lease now clean s
      (s.shrink (fun _ => true) fun _ => true) :=
    effect_shrink lease now clean s (fun key never => (kept key never).elim)
      fun row never => (kept row never).elim
  rwa [Store.shrink_all] at same

/-- A purge whose deletion of the objects is caught. -/
theorem caughtDeletion_effect {workspaceId base rowBase : Name}
    (objects : ∀ key, ownsObject mediaPrefix lease key = base.isPrefixOf key)
    (returns : clean → answers.deletePrefix = .returns)
    (rows : ∀ row, ownsRow lease row = rowUnder workspaceId rowBase row) :
    Ends (fun _ => Effect mediaPrefix lease now clean s)
      (fun _ => Effect mediaPrefix lease now clean s)
      (do
        caught (deletePrefix answers.deletePrefix base)
        ask answers.listPods
        deleteRows answers.deleteRows workspaceId rowBase
        statement answers.markPurged (Store.closeLease lease.id now)) s := by
  rw [ends_bind, ends_caught_deletePrefix]
  refine closing_effect (fun key dropped => ?_) (fun isClean key kept => ?_) rows
  · rw [objects]
    exact Deletion.not_keeps dropped
  · rw [returns isClean] at kept
    rw [objects]
    exact Deletion.keeps_returns kept

theorem purgeAssistant_effect {metadata : Option AssistantMetadata}
    (kind : lease.kind = .assistantSubtree metadata) :
    Ends (fun _ => Effect mediaPrefix lease now (Clean answers lease) s)
      (fun _ => Effect mediaPrefix lease now (Clean answers lease) s)
      (purgeAssistantSubtree mediaPrefix now answers lease metadata) s := by
  cases metadata with
  | none => exact effect_nothing
  | some metadata =>
    refine caughtDeletion_effect (fun key => ?_) (fun isClean => ?_) fun row => ?_
    · rw [ownsObject, kind]
    · rwa [Clean, kind] at isClean
    · rw [ownsRow, kind]

theorem purgeWorkspace_effect {metadata : Option Unit}
    (kind : lease.kind = .workspaceSubtree metadata) :
    Ends (fun _ => Effect mediaPrefix lease now (Clean answers lease) s)
      (fun _ => Effect mediaPrefix lease now (Clean answers lease) s)
      (purgeWorkspaceSubtree mediaPrefix now answers lease metadata) s := by
  cases metadata with
  | none => exact effect_nothing
  | some metadata =>
    refine caughtDeletion_effect (fun key => ?_) (fun isClean => ?_) fun row => ?_
    · rw [ownsObject, kind]
    · rwa [Clean, kind] at isClean
    · rw [ownsRow, kind]

theorem purgeSession_effect {metadata : Option SessionMetadata}
    (kind : lease.kind = .sessionSubtree metadata) :
    Ends (fun _ => Effect mediaPrefix lease now (Clean answers lease) s)
      (fun _ => Effect mediaPrefix lease now (Clean answers lease) s)
      (purgeSessionSubtree mediaPrefix now answers lease metadata) s := by
  cases metadata with
  | none => exact effect_nothing
  | some metadata =>
    rw [purgeSessionSubtree]
    dsimp only
    have noRow (row : Row) (never : true = false) : ownsRow lease row := absurd never (by decide)
    cases session : metadata.sessionId with
    | some sessionId =>
      have inTree (key : Name) (within : (workspacePrefix mediaPrefix metadata.workspaceId
          (some (sessionRoot metadata.assistantId sessionId))).isPrefixOf key) :
          ownsObject mediaPrefix lease key := by
        simp only [ownsObject, kind, session, within, Bool.true_or]
      dsimp only
      rw [ends_bind, ends_deletePrefix]
      split
      · rename_i returned
        rw [ends_bind, ends_caught_deletePrefix, Store.shrink_shrink]
        refine closing_effect (fun key dropped => ?_) (fun isClean key kept => ?_) fun row => ?_
        · rcases (Bool.and_eq_false_iff.mp dropped) with first | second
          · exact inTree key (Deletion.not_keeps first)
          · simp only [ownsObject, kind, session, Deletion.not_keeps second, Bool.or_true]
        · rw [Clean, kind] at isClean
          rw [returned, isClean, Bool.and_eq_true] at kept
          simp only [ownsObject, kind, session, Deletion.keeps_returns kept.1,
            Deletion.keeps_returns kept.2, Bool.or_false]
        · simp only [ownsRow, kind, session]
      · exact effect_shrink lease now _ s
            (fun key dropped => inTree key (Deletion.not_keeps dropped))
          noRow
    | none =>
      have snapshots (key : Name) (dropped : answers.deletePrefix.keeps
          (snapshotPrefix mediaPrefix metadata.assistantId none) key = false) :
          ownsObject mediaPrefix lease key := by
        simp only [ownsObject, kind, session, Deletion.not_keeps dropped]
      dsimp only
      rw [ends_bind, ends_deletePrefix]
      split
      · rename_i returned
        have closed := effect_close lease now (Clean answers lease) s snapshots noRow
          (fun _ key kept => by
            rw [returned] at kept
            simp only [ownsObject, kind, session, Deletion.keeps_returns kept])
          (fun row _ => by simp only [ownsRow, kind, session])
        rw [ends_statement]
        split
        · exact closed
        · split_ifs
          · exact closed
          · exact effect_shrink lease now _ s snapshots noRow
      · exact effect_shrink lease now _ s snapshots noRow

theorem purgeLease_effect : Effect mediaPrefix lease now (Clean answers lease) s
    (final (purgeLease mediaPrefix now answers lease) s) := by
  rw [final_iff (P := Effect mediaPrefix lease now (Clean answers lease) s), purgeLease, caught,
    ends_tryCatch]
  cases kind : lease.kind with
  | sessionSubtree metadata => exact purgeSession_effect kind
  | assistantSubtree metadata => exact purgeAssistant_effect kind
  | workspaceSubtree metadata => exact purgeWorkspace_effect kind

/-- A statement that is done, whether its answer comes or not. -/
theorem ends_effective {P : Store → Prop} {outcome : Outcome} {write : Store → Store}
    (effective : outcome.effective) (written : P (write s)) :
    Ends (fun _ => P) (fun _ => P) (statement outcome write) s := by
  rw [ends_statement]
  cases outcome with
  | returns => exact written
  | throws error committed =>
    rw [Outcome.effective_throws] at effective
    subst effective
    exact written

theorem closing_leases {P : Store → Prop} {workspaceId base : Name}
    (listed : answers.listPods.isOk && decide (answers.deleteRows = .returns))
    (closes : answers.markPurged.effective)
    (written : ∀ s' : Store, s'.leases = s.leases → P (s'.closeLease lease.id now)) :
    Ends (fun _ => P) (fun _ => P)
      (do
        ask answers.listPods
        deleteRows answers.deleteRows workspaceId base
        statement answers.markPurged (Store.closeLease lease.id now))
      (s.shrink keepObject fun _ => true) := by
  rw [Bool.and_eq_true, decide_eq_true_eq] at listed
  obtain ⟨pods, rows⟩ := listed
  rw [ends_bind, ends_ask]
  split
  · rw [ends_bind, deleteRows, ends_statement, rows]
    exact ends_effective closes (written _ rfl)
  · rename_i failed
    rw [failed] at pods
    cases pods

theorem purgeLease_closes (closes : reachesClose answers lease) :
    (final (purgeLease mediaPrefix now answers lease) s).leases =
      (s.closeLease lease.id now).leases := by
  have written (s' : Store) (same : s'.leases = s.leases) :
      (s'.closeLease lease.id now).leases = (s.closeLease lease.id now).leases :=
    congrArg (List.map _) same
  refine (final_iff (P := fun s' : Store => s'.leases = (s.closeLease lease.id now).leases)).mpr ?_
  rw [purgeLease, caught, ends_tryCatch]
  rw [reachesClose, Bool.and_eq_true] at closes
  obtain ⟨marked, reaches⟩ := closes
  cases kind : lease.kind with
  | sessionSubtree metadata =>
    rw [kind] at reaches
    cases metadata with
    | none => cases reaches
    | some metadata =>
      dsimp only at reaches ⊢
      rw [purgeSessionSubtree]
      rw [Bool.and_eq_true] at reaches
      obtain ⟨deleted, listed⟩ := reaches
      have returned : answers.deletePrefix = .returns := by
        cases deletion : answers.deletePrefix with
        | returns => rfl
        | throws => rw [deletion] at deleted; cases deleted
      dsimp only
      cases session : metadata.sessionId with
      | some sessionId =>
        rw [session, Option.isNone_some, Bool.false_or] at listed
        dsimp only
        rw [ends_bind, ends_deletePrefix, returned]
        dsimp only
        rw [ends_bind, ends_caught_deletePrefix, Store.shrink_shrink]
        exact closing_leases listed marked written
      | none =>
        dsimp only
        rw [ends_bind, ends_deletePrefix, returned]
        exact ends_effective marked (written _ rfl)
  | assistantSubtree metadata =>
    rw [kind] at reaches
    cases metadata with
    | none => cases reaches
    | some metadata =>
      dsimp only at reaches ⊢
      rw [purgeAssistantSubtree, ends_bind, ends_caught_deletePrefix]
      exact closing_leases reaches marked written
  | workspaceSubtree metadata =>
    rw [kind] at reaches
    cases metadata with
    | none => cases reaches
    | some metadata =>
      dsimp only at reaches ⊢
      rw [purgeWorkspaceSubtree, ends_bind, ends_caught_deletePrefix]
      exact closing_leases reaches marked written

end

/-! ## One tick -/

/-- What a tick may have done to the store, with these leases to purge. -/
structure TickEffect (mediaPrefix : Name) (now : ℕ) (due : List Lease) (s s' : Store) : Prop where
  objects : ∀ key ∈ s'.objects, key ∈ s.objects
  objectsKept : ∀ key ∈ s.objects, (∀ lease ∈ due, ownsObject mediaPrefix lease key = false) →
    key ∈ s'.objects
  rows : ∀ row ∈ s'.rows, row ∈ s.rows
  rowsKept : ∀ row ∈ s.rows, (∀ lease ∈ due, ownsRow lease row = false) → row ∈ s'.rows
  ids : s'.leases.map Lease.id = s.leases.map Lease.id
  leases : ∀ lease ∈ s.leases, lease ∈ s'.leases ∨
    ∃ other ∈ due, other.id = lease.id ∧ { lease with purgedAt := some now } ∈ s'.leases ∧
      (∀ key ∈ s'.objects, ownsObject mediaPrefix other key = false) ∧
      ∀ row ∈ s'.rows, ownsRow other row = false

theorem Store.closeLease_ids (s : Store) (id now : ℕ) :
    (s.closeLease id now).leases.map Lease.id = s.leases.map Lease.id := by
  rw [Store.closeLease, List.map_map]
  refine List.map_congr_left fun lease _ => ?_
  rw [Function.comp_apply]
  split_ifs <;> rfl

theorem Store.mem_closeLease {s : Store} {lease : Lease} (mem : lease ∈ s.leases) (id now : ℕ) :
    (lease.id = id ∧ { lease with purgedAt := some now } ∈ (s.closeLease id now).leases) ∨
      lease ∈ (s.closeLease id now).leases := by
  have mapped := List.mem_map_of_mem (f := fun lease : Lease =>
    if lease.id = id then { lease with purgedAt := some now } else lease) mem
  by_cases same : lease.id = id
  · rw [if_pos same] at mapped
    exact .inl ⟨same, mapped⟩
  · rw [if_neg same] at mapped
    exact .inr mapped

theorem purgeAll_effect {now : ℕ} {answers : ℕ → Answers} {due : List Lease} {s : Store}
    (clean : ∀ lease ∈ due, Clean (answers lease.id) lease) :
    TickEffect mediaPrefix now due s (purgeAll mediaPrefix now answers s due) := by
  induction due generalizing s with
  | nil => exact ⟨fun _ mem => mem, fun _ mem _ => mem, fun _ mem => mem, fun _ mem _ => mem, rfl,
      fun _ mem => .inl mem⟩
  | cons first due ih =>
    obtain ⟨cleanFirst, clean⟩ := List.forall_mem_cons.mp clean
    have one : Effect mediaPrefix first now (Clean (answers first.id) first) s
      (final (purgeLease mediaPrefix now (answers first.id) first) s) := purgeLease_effect
    rw [purgeAll]
    generalize final (purgeLease mediaPrefix now (answers first.id) first) s = s₁ at one
    have rest := ih (s := s₁) clean
    generalize purgeAll mediaPrefix now answers s₁ due = s₂ at rest ⊢
    have later {lease : Lease} (mem : lease ∈ s₁.leases) := rest.leases lease mem
    refine ⟨fun key mem => one.objects key (rest.objects key mem), fun key mem others => ?_,
      fun row mem => one.rows row (rest.rows row mem), fun row mem others => ?_, ?_,
      fun lease mem => ?_⟩
    · obtain ⟨other, others⟩ := List.forall_mem_cons.mp others
      exact rest.objectsKept key (one.objectsKept key mem other) others
    · obtain ⟨other, others⟩ := List.forall_mem_cons.mp others
      exact rest.rowsKept row (one.rowsKept row mem other) others
    · rcases one.leases with same | ⟨closed, -, -⟩
      · rw [rest.ids, same]
      · rw [rest.ids, closed, Store.closeLease_ids]
    · have widen (found : lease ∈ s₁.leases) : lease ∈ s₂.leases ∨
          ∃ other ∈ first :: due, other.id = lease.id ∧
            { lease with purgedAt := some now } ∈ s₂.leases ∧
            (∀ key ∈ s₂.objects, ownsObject mediaPrefix other key = false) ∧
            ∀ row ∈ s₂.rows, ownsRow other row = false := by
        refine (later found).imp_right ?_
        rintro ⟨other, mem, gone⟩
        exact ⟨other, List.mem_cons_of_mem _ mem, gone⟩
      rcases one.leases with same | ⟨closed, gone, goneRows⟩
      · exact widen (same ▸ mem)
      · rcases Store.mem_closeLease mem first.id now with ⟨same, found⟩ | found
        · -- what is gone stays gone, and the lease stays closed
          refine .inr ⟨first, List.mem_cons_self, same.symm, ?_,
            fun key mem => gone cleanFirst key (rest.objects key mem),
            fun row mem => goneRows row (rest.rows row mem)⟩
          rw [← closed] at found
          rcases later found with kept | ⟨-, -, -, again, -⟩
          · exact kept
          · exact again
        · exact widen (closed ▸ found)

variable (mediaPrefix) in
/-- Which leases a tick closes: it changes nothing else about them. -/
theorem purgeAll_leases (now : ℕ) (answers : ℕ → Answers) (due : List Lease) (s : Store) :
    ∃ closes : ℕ → Bool, (purgeAll mediaPrefix now answers s due).leases =
        (s.leases.map fun lease =>
          if closes lease.id then { lease with purgedAt := some now } else lease) ∧
      ∀ lease ∈ due, reachesClose (answers lease.id) lease → closes lease.id := by
  induction due generalizing s with
  | nil =>
    refine ⟨fun _ => false, ?_, fun _ mem => nomatch mem⟩
    simp only [purgeAll, Bool.false_eq_true, if_false, List.map_id']
  | cons first due ih =>
    have one : Effect mediaPrefix first now (Clean (answers first.id) first) s
      (final (purgeLease mediaPrefix now (answers first.id) first) s) := purgeLease_effect
    have closesFirst : reachesClose (answers first.id) first →
        (final (purgeLease mediaPrefix now (answers first.id) first) s).leases =
          (s.closeLease first.id now).leases := purgeLease_closes
    rw [purgeAll]
    generalize final (purgeLease mediaPrefix now (answers first.id) first) s = s₁
      at one closesFirst
    obtain ⟨closes, leases, others⟩ := ih s₁
    by_cases same : s₁.leases = (s.closeLease first.id now).leases
    · refine ⟨fun id => closes id || id = first.id, ?_, fun lease mem reaches => ?_⟩
      · rw [leases, same, Store.closeLease, List.map_map]
        refine List.map_congr_left fun lease _ => ?_
        by_cases first : lease.id = first.id <;> by_cases later : closes lease.id <;>
          simp [first, later]
      · rcases List.mem_cons.mp mem with rfl | mem
        · simp
        · simp [others lease mem reaches]
    · refine ⟨closes, ?_, fun lease mem reaches => ?_⟩
      · rw [leases, one.leases.resolve_right fun closed => same closed.1]
      · rcases List.mem_cons.mp mem with rfl | mem
        · exact absurd (closesFirst reaches) same
        · exact others lease mem reaches

/-! ## The leases that are due -/

theorem mem_take_or {α : Type} {l : List α} (key : α → ℕ) (n : ℕ)
    (sorted : l.Pairwise fun a b => key a ≤ key b) {a : α} (mem : a ∈ l) :
    a ∈ l.take n ∨ n < l.length ∧ ∀ b ∈ l.take n, key b ≤ key a := by
  rw [← List.take_append_drop n l, List.mem_append] at mem
  refine mem.imp_right fun later => ⟨?_, fun b earlier => ?_⟩
  · have positive := List.length_pos_of_mem later
    rw [List.length_drop] at positive
    omega
  · rw [← List.take_append_drop n l] at sorted
    exact (List.pairwise_append.mp sorted).2.2 b earlier a later

theorem dueLeases_isDue {s : Store} {now : ℕ} {filter : Option Filter} {lease : Lease}
    (mem : lease ∈ dueLeases s now filter) : lease ∈ s.leases ∧ isDue now filter lease := by
  have sorted := List.mem_of_mem_take mem
  rw [List.mem_mergeSort] at sorted
  exact List.mem_filter.mp sorted

/-- A lease that is due is taken up, or as many as may be are, none of them scheduled later. -/
theorem mem_dueLeases_or {s : Store} {now : ℕ} {filter : Option Filter} {lease : Lease}
    (mem : lease ∈ s.leases) (due : isDue now filter lease) :
    lease ∈ dueLeases s now filter ∨ scanLimit < s.leases.countP (isDue now filter) ∧
      ∀ other ∈ dueLeases s now filter, other.scheduledAt ≤ lease.scheduledAt := by
  have sorted : ((s.leases.filter (isDue now filter)).mergeSort fun a b : Lease =>
      a.scheduledAt ≤ b.scheduledAt).Pairwise fun a b =>
        decide (a.scheduledAt ≤ b.scheduledAt) = true := by
    refine List.pairwise_mergeSort (fun a b c first second => ?_) (fun a b => ?_) _
    · exact decide_eq_true (Nat.le_trans (of_decide_eq_true first) (of_decide_eq_true second))
    · simpa using Nat.le_total a.scheduledAt b.scheduledAt
  have taken := mem_take_or Lease.scheduledAt scanLimit
    (sorted.imp fun before => of_decide_eq_true before)
    (List.mem_mergeSort.mpr (List.mem_filter.mpr ⟨mem, due⟩))
  rwa [List.length_mergeSort, ← List.countP_eq_length_filter] at taken

/-! ## Runs -/

/-- Closed by a tick, with nothing left of its subtree. -/
structure Closed (mediaPrefix : Name) (lease : Lease) (now : ℕ) (s : Store) : Prop where
  closed : { lease with purgedAt := some now } ∈ s.leases
  objects : ∀ key ∈ s.objects, ownsObject mediaPrefix lease key = false
  rows : ∀ row ∈ s.rows, ownsRow lease row = false

/-- A tick closes a lease only when nothing of its subtree is left, and leaves every other one as
it is; it deletes only what open leases name; and it passes over a lease that is due only where it
takes up as many as it may, and none that is scheduled later. -/
structure TickIsComplete (mediaPrefix : Name) (now : ℕ) (filter : Option Filter) (s s' : Store) :
    Prop where
  leases : ∀ lease ∈ s.leases, lease ∈ s'.leases ∨
    lease.purgedAt = none ∧ Closed mediaPrefix lease now s'
  objects : ∀ key ∈ s.objects, key ∉ s'.objects →
    ∃ lease ∈ s.leases, lease.purgedAt = none ∧ ownsObject mediaPrefix lease key
  rows : ∀ row ∈ s.rows, row ∉ s'.rows →
    ∃ lease ∈ s.leases, lease.purgedAt = none ∧ ownsRow lease row
  takenUp : ∀ lease ∈ s.leases, isDue now filter lease → lease ∈ dueLeases s now filter ∨
    scanLimit < s.leases.countP (isDue now filter) ∧
      ∀ other ∈ dueLeases s now filter, other.scheduledAt ≤ lease.scheduledAt

/-- Nothing but a tick deletes anything or closes a lease. -/
def StepIsComplete (mediaPrefix : Name) (s : Store) (e : Event) : Prop :=
  match e with
  | .tick now filter _ _ => TickIsComplete mediaPrefix now filter s (step mediaPrefix s e)
  | _ => s.objects ⊆ (step mediaPrefix s e).objects ∧ s.rows ⊆ (step mediaPrefix s e).rows ∧
      s.leases ⊆ (step mediaPrefix s e).leases

/-- No deletion that a tick tries throws an error that is caught. -/
def CleanStep (s : Store) (e : Event) : Prop :=
  match e with
  | .tick now filter _ answers => ∀ lease ∈ dueLeases s now filter, Clean (answers lease.id) lease
  | _ => True

def UniqueIds (s : Store) : Prop := (s.leases.map Lease.id).Nodup

theorem isDue_open {now : ℕ} {filter : Option Filter} {lease : Lease}
    (due : isDue now filter lease) : lease.purgedAt = none := by
  simp only [isDue, Bool.and_eq_true, Option.isNone_iff_eq_none] at due
  exact due.1.1

theorem tick_isComplete {s : Store} (unique : UniqueIds s) {now : ℕ} {filter : Option Filter}
    {answers : ℕ → Answers}
    (clean : ∀ lease ∈ dueLeases s now filter, Clean (answers lease.id) lease) :
    TickIsComplete mediaPrefix now filter s
      (purgeAll mediaPrefix now answers s (dueLeases s now filter)) := by
  have effect : TickEffect mediaPrefix now (dueLeases s now filter) s
      (purgeAll mediaPrefix now answers s (dueLeases s now filter)) := purgeAll_effect clean
  refine ⟨fun lease mem => ?_, fun key mem gone => ?_, fun row mem gone => ?_,
    fun lease mem due => mem_dueLeases_or mem due⟩
  · refine (effect.leases lease mem).imp_right ?_
    rintro ⟨other, otherMem, sameId, closed, objects, rows⟩
    obtain ⟨otherMem, due⟩ := dueLeases_isDue otherMem
    -- a lease is known by its id
    obtain rfl := List.inj_on_of_nodup_map unique otherMem mem sameId
    exact ⟨isDue_open due, closed, objects, rows⟩
  · by_contra others
    refine gone (effect.objectsKept key mem fun lease leaseMem => ?_)
    obtain ⟨leaseMem, due⟩ := dueLeases_isDue leaseMem
    by_contra owns
    exact others ⟨lease, leaseMem, isDue_open due, Bool.not_eq_false _ ▸ owns⟩
  · by_contra others
    refine gone (effect.rowsKept row mem fun lease leaseMem => ?_)
    obtain ⟨leaseMem, due⟩ := dueLeases_isDue leaseMem
    by_contra owns
    exact others ⟨lease, leaseMem, isDue_open due, Bool.not_eq_false _ ▸ owns⟩

theorem step_uniqueIds {s : Store} (unique : UniqueIds s) {e : Event} (clean : CleanStep s e) :
    UniqueIds (step mediaPrefix s e) := by
  cases e with
  | write objects rows => exact unique
  | schedule lease =>
    rw [step]
    split_ifs with taken
    · exact unique
    · refine List.nodup_cons.mpr ⟨fun mem => taken ?_, unique⟩
      obtain ⟨other, otherMem, same⟩ := List.mem_map.mp mem
      exact List.any_eq_true.mpr ⟨other, otherMem, decide_eq_true same⟩
  | tick now filter scan answers =>
    cases scan with
    | error => exact unique
    | ok =>
      have effect : TickEffect mediaPrefix now (dueLeases s now filter) s
          (purgeAll mediaPrefix now answers s (dueLeases s now filter)) := purgeAll_effect clean
      exact (congrArg List.Nodup effect.ids).mpr unique

theorem step_isComplete {s : Store} (unique : UniqueIds s) {e : Event} (clean : CleanStep s e) :
    StepIsComplete mediaPrefix s e := by
  cases e with
  | write objects rows =>
    exact ⟨List.subset_append_right .., List.subset_append_right .., List.Subset.refl _⟩
  | schedule lease =>
    refine ⟨?_, ?_, ?_⟩ <;> rw [step] <;> split_ifs
    all_goals first | exact List.Subset.refl _ | exact List.subset_cons_self ..
  | tick now filter scan answers =>
    cases scan with
    | error => exact ⟨fun _ mem => .inl mem, fun _ mem gone => absurd mem gone,
        fun _ mem gone => absurd mem gone, fun _ mem due => mem_dueLeases_or mem due⟩
    | ok => exact tick_isComplete unique clean

/-! ## Waiting for a tick -/

/-- The open leases scheduled up to the lease. -/
def ahead (lease : Lease) (s : Store) : ℕ :=
  s.leases.countP fun other => other.purgedAt.isNone && other.scheduledAt ≤ lease.scheduledAt

/-- A lease is made that is scheduled up to the lease. -/
def getsAhead (lease : Lease) : Event → Bool
  | .schedule other => other.scheduledAt ≤ lease.scheduledAt
  | _ => false

/-- A tick for all targets reads the leases when this one is due; where more are due than it may
take up, the purge of one that it takes up comes to its end. -/
def getsOn (lease : Lease) (s : Store) : Event → Bool
  | .tick now none (.ok _) answers =>
    lease.scheduledAt ≤ now && (s.leases.countP (isDue now none) ≤ scanLimit ||
      (dueLeases s now none).any fun other => reachesClose (answers other.id) other)
  | _ => false

def TakesUp (lease : Lease) (s : Store) : Event → Prop
  | .tick now filter (.ok _) _ => lease ∈ dueLeases s now filter
  | _ => False

variable (mediaPrefix) in
/-- An open lease is taken up once there have been as many such ticks as leases are scheduled up
to it. -/
def PickedUp (s : Store) (events : List Event) : Prop :=
  ∀ lease ∈ s.leases, lease.purgedAt = none →
    ahead lease s + events.countP (getsAhead lease) ≤
        countSteps (step mediaPrefix) (getsOn lease) s events →
      SomeStep (step mediaPrefix) (TakesUp lease) s events

theorem countP_lt_countP {α : Type} {p q : α → Bool} {l : List α} (le : ∀ a ∈ l, p a → q a)
    {a : α} (mem : a ∈ l) (gained : q a) (lost : ¬ p a) : l.countP p < l.countP q := by
  induction l with
  | nil => cases mem
  | cons b l ih =>
    obtain ⟨first, others⟩ := List.forall_mem_cons.mp le
    rw [List.countP_cons, List.countP_cons]
    rcases List.mem_cons.mp mem with rfl | mem
    · rw [if_neg lost, if_pos gained]
      exact Nat.lt_succ_of_le (List.countP_mono_left others)
    · have fewer := ih others mem
      split_ifs with before after <;> first | omega | exact absurd (first before) after

variable (mediaPrefix) in
/-- A lease that a tick does not take up waits behind fewer, if one of those it takes up is
closed. -/
theorem ahead_tick (lease : Lease) (now : ℕ) (filter : Option Filter) (answers : ℕ → Answers)
    (s : Store) :
    ahead lease (purgeAll mediaPrefix now answers s (dueLeases s now filter)) ≤ ahead lease s ∧
      ∀ other ∈ dueLeases s now filter, reachesClose (answers other.id) other →
        other.scheduledAt ≤ lease.scheduledAt →
        ahead lease (purgeAll mediaPrefix now answers s (dueLeases s now filter)) <
          ahead lease s := by
  obtain ⟨closes, leases, reached⟩ :=
    purgeAll_leases mediaPrefix now answers (dueLeases s now filter) s
  have still (other : Lease) (waits : ((fun other : Lease => other.purgedAt.isNone &&
      decide (other.scheduledAt ≤ lease.scheduledAt)) ∘ fun other =>
        if closes other.id then { other with purgedAt := some now } else other) other) :
      (other.purgedAt.isNone && decide (other.scheduledAt ≤ lease.scheduledAt)) ∧
        ¬ closes other.id := by
    rw [Function.comp_apply] at waits
    split_ifs at waits with closed
    · cases waits
    · exact ⟨waits, closed⟩
  rw [ahead, ahead, leases, List.countP_map]
  refine ⟨List.countP_mono_left fun other _ waits => (still other waits).1,
    fun other taken reaches upTo => ?_⟩
  obtain ⟨mem, due⟩ := dueLeases_isDue taken
  refine countP_lt_countP (fun other _ waits => (still other waits).1) mem ?_ fun waits =>
    (still other waits).2 (reached other taken reaches)
  rw [isDue_open due]
  simpa using upTo

section

variable {lease : Lease} {s : Store} {e : Event}

theorem ahead_falls (isOpen : lease.purgedAt = none) (mem : lease ∈ s.leases)
    (passed : ¬ TakesUp lease s e) :
    ahead lease (step mediaPrefix s e) + (if getsOn lease s e then 1 else 0) ≤
      ahead lease s + if getsAhead lease e then 1 else 0 := by
  cases e with
  | write objects rows => exact Nat.le_refl _
  | schedule other =>
    by_cases taken : s.leases.any fun known => known.id = other.id
    · rw [step, if_pos taken]
      exact Nat.le_add_right ..
    · rw [step, if_neg taken]
      rw [ahead, List.countP_cons]
      exact Nat.le_refl _
  | tick now filter scan answers =>
    cases scan with
    | error => cases filter <;> exact Nat.le_refl _
    | ok =>
      obtain ⟨le, falls⟩ := ahead_tick mediaPrefix lease now filter answers s
      cases filter with
      | some filter => exact le
      | none =>
        by_cases on : getsOn lease s (.tick now none (.ok ()) answers)
        · rw [if_pos on]
          rw [getsOn, Bool.and_eq_true, Bool.or_eq_true] at on
          obtain ⟨late, on⟩ := on
          have due : isDue now none lease := by
            rw [isDue, isOpen]
            simpa using late
          -- the tick takes up as many as it may, and closes one of them
          obtain ⟨many, earlier⟩ := (mem_dueLeases_or mem due).resolve_left passed
          have few := on.resolve_left fun few => absurd (of_decide_eq_true few) (by omega)
          obtain ⟨other, taken, reaches⟩ := List.any_eq_true.mp few
          exact falls other taken reaches (earlier other taken)
        · rw [if_neg on]
          exact le

theorem step_keeps_open (unique : UniqueIds s) (clean : CleanStep s e)
    (mem : lease ∈ s.leases) (passed : ¬ TakesUp lease s e) :
    lease ∈ (step mediaPrefix s e).leases := by
  have complete : StepIsComplete mediaPrefix s e := step_isComplete unique clean
  cases e with
  | write => exact mem
  | schedule => exact complete.2.2 mem
  | tick now filter scan answers =>
    cases scan with
    | error => exact mem
    | ok =>
      have effect : TickEffect mediaPrefix now (dueLeases s now filter) s
          (purgeAll mediaPrefix now answers s (dueLeases s now filter)) := purgeAll_effect clean
      refine (effect.leases lease mem).resolve_right ?_
      rintro ⟨other, taken, sameId, -⟩
      obtain rfl := List.inj_on_of_nodup_map unique (dueLeases_isDue taken).1 mem sameId
      exact passed taken

end

theorem pickedUp {s : Store} (unique : UniqueIds s) {events : List Event}
    (clean : EveryStep (step mediaPrefix) CleanStep s events) : PickedUp mediaPrefix s events := by
  intro lease mem isOpen enough
  refine someStep_of_countSteps (I := fun s => UniqueIds s ∧ lease ∈ s.leases)
    (fun s known => ?_) (fun s e known clean passed => ?_) (fun s e known _ passed => ?_)
    ⟨unique, mem⟩ clean enough
  · refine List.countP_pos_iff.mpr ⟨lease, known.2, ?_⟩
    rw [isOpen]
    simp
  · exact ⟨step_uniqueIds known.1 clean, step_keeps_open known.1 clean known.2 passed⟩
  · exact ahead_falls isOpen known.2 passed

variable (mediaPrefix) in
/-- In every run whose caught deletions all succeed, each step is complete; and whenever a lease
is open, it is picked up again. -/
theorem runs_complete {s : Store} (unique : UniqueIds s) (events : List Event)
    (clean : EveryStep (step mediaPrefix) CleanStep s events) :
    EveryStep (step mediaPrefix) (StepIsComplete mediaPrefix) s events ∧
      ∀ earlier later, events = earlier ++ later →
        PickedUp mediaPrefix (run (step mediaPrefix) s earlier) later := by
  refine ⟨everyStep_of_preserved (fun _ _ unique clean => step_uniqueIds unique clean)
    (fun _ _ unique clean => step_isComplete unique clean) unique clean, ?_⟩
  rintro earlier later rfl
  obtain ⟨before, after⟩ := everyStep_append.mp clean
  have reached : EveryState (step mediaPrefix) UniqueIds s earlier :=
    everyState_of_preserved (fun _ _ unique clean => step_uniqueIds unique clean) unique before
  exact pickedUp reached.last after

end

/-! ## A deletion that throws and is caught -/

namespace Sample

def media : Name := "media".toList

def workspaceId : Name := "11111111-1111-4111-8111-111111111111".toList

def assistantId : Name := "22222222-2222-4222-8222-222222222222".toList

def lease : Lease where
  id := 1
  kind := .assistantSubtree (some ⟨workspaceId, assistantId⟩)
  targetId := assistantId
  scheduledAt := 0
  purgedAt := none

def object : Name :=
  ("media/workspaces/11111111-1111-4111-8111-111111111111/workspace/" ++
    "assistants/22222222-2222-4222-8222-222222222222/notes.txt").toList

def tick (now : ℕ) (deletion : Deletion) (listPods : Except String Unit) : Event :=
  .tick now none (.ok ()) fun _ => ⟨deletion, .returns, listPods, .returns, .returns⟩

/-- The first tick cannot list the pods. -/
def retried : List Event :=
  [.schedule lease, .write [object] [], tick 5 .returns (.error "503"), tick 6 .returns (.ok ())]

/-- The first tick leaves the lease open, and the second one picks it up again. -/
theorem retried_complete :
    EveryStep (step media) (StepIsComplete media) ⟨[], [], []⟩ retried ∧
      SomeStep (step media) (TakesUp lease) (run (step media) ⟨[], [], []⟩ (retried.take 3))
        (retried.drop 3) := by
  have unique : UniqueIds ⟨[], [], []⟩ := List.nodup_nil
  have clean : EveryStep (step media) CleanStep ⟨[], [], []⟩ retried := by
    refine ⟨trivial, trivial, ?_, ?_, trivial⟩ <;> rintro due - <;> unfold Clean <;> split <;> rfl
  obtain ⟨complete, pickedUp⟩ := runs_complete media unique retried clean
  exact ⟨complete, pickedUp (retried.take 3) (retried.drop 3) rfl lease (by decide +kernel) rfl
    (by decide +kernel)⟩

/-- The lease is closed, and the object is still there. -/
theorem outage_leaves_object :
    (run (step media) ⟨[], [], []⟩ [.schedule lease, .write [object] [],
        tick 5 (.throws "503" fun _ => true) (.ok ())]) =
      ⟨[object], [], [{ lease with purgedAt := some 5 }]⟩ ∧
    ownsObject media lease object = true := by
  decide +kernel

end Sample

end Persai.WorkspaceGc
