import Persai.AssistantRoles.Transactions

/-!
# The transactions on roles and skills, interleaved

Each transaction keeps the rules of row locks: it locks upwards, and writes only what the rows it
holds guard. The updates that are in no transaction but their own keep them too, but for the order.

* `Right`: assistants have active roles, active roles have no archived skills, and chats use skills
  of the role;
* `Kept`: what the rows of skills, roles and assistants guard;
* `right_run`: every interleaving keeps the tables right, and no row is locked twice;
* `no_deadlock`: as long as only the transactions run, one of them can go on.
-/

namespace Persai.AssistantRoles

open RowLocks

/-! ## What holds, and what the rows guard -/

structure Right (d : Database) : Prop where
  /-- An active role has no archived skill. -/
  usable : ∀ skillId, (d.skill skillId).status = .archived → d.activeLinkedRoles skillId = ∅
  /-- The role of an assistant is there, and is active. -/
  role : ∀ id ∈ d.assistantIds, (d.assistant id).roleId ∈ d.roleIds ∧
    (d.role (d.assistant id).roleId).status = .active
  owner : ∀ id ∈ d.chatIds, (d.chat id).assistantId ∈ d.assistantIds
  /-- The skill that a chat uses is linked to the role of its assistant. -/
  engaged : ∀ id ∈ d.chatIds, ∀ skillId, (d.chat id).activeSkillId = some skillId →
    ((d.assistant (d.chat id).assistantId).roleId, skillId) ∈ d.links

/-- No transaction makes or deletes a row of these tables. -/
structure SameRows (d d' : Database) : Prop where
  skillIds : d'.skillIds = d.skillIds
  roleIds : d'.roleIds = d.roleIds
  assistantIds : d'.assistantIds = d.assistantIds
  chatIds : d'.chatIds = d.chatIds
  assistantId : ∀ id, (d'.chat id).assistantId = (d.chat id).assistantId
  userId : ∀ id, (d'.assistant id).userId = (d.assistant id).userId
  workspaceId : ∀ id, (d'.assistant id).workspaceId = (d.assistant id).workspaceId

structure Kept (row : Row) (d d' : Database) : Prop where
  /-- No other active role becomes linked to a skill. -/
  skill : ∀ id, row = idRow .skill id →
    d'.skill id = d.skill id ∧ d'.activeLinkedRoles id ⊆ d.activeLinkedRoles id
  role : ∀ id, row = idRow .role id → d'.role id = d.role id ∧
    d'.skillIdsOf id = d.skillIdsOf id ∧ d'.assistantsOf id = d.assistantsOf id
  assistant : ∀ id, row = idRow .assistant id →
    (d'.assistant id).roleId = (d.assistant id).roleId

def rules : Discipline Database Row := ⟨Right, Kept, SameRows, Upwards⟩

theorem SameRows.refl (d : Database) : SameRows d d :=
  ⟨rfl, rfl, rfl, rfl, fun _ => rfl, fun _ => rfl, fun _ => rfl⟩

theorem SameRows.trans {d d' d'' : Database} (same : SameRows d d') (same' : SameRows d' d'') :
    SameRows d d'' where
  skillIds := same'.skillIds.trans same.skillIds
  roleIds := same'.roleIds.trans same.roleIds
  assistantIds := same'.assistantIds.trans same.assistantIds
  chatIds := same'.chatIds.trans same.chatIds
  assistantId id := (same'.assistantId id).trans (same.assistantId id)
  userId id := (same'.userId id).trans (same.userId id)
  workspaceId id := (same'.workspaceId id).trans (same.workspaceId id)

theorem Kept.refl (row : Row) (d : Database) : Kept row d d :=
  ⟨fun _ _ => ⟨rfl, subset_rfl⟩, fun _ _ => ⟨rfl, rfl, rfl⟩, fun _ _ => rfl⟩

theorem mem_activeLinkedRoles {d : Database} {skillId roleId : Uuid} :
    roleId ∈ d.activeLinkedRoles skillId ↔ roleId ∈ d.roleIds ∧
      (d.role roleId).status = .active ∧ (roleId, skillId) ∈ d.links := by
  rw [Database.activeLinkedRoles, Finset.mem_filter]

theorem mem_skillIdsOf {d : Database} {roleId skillId : Uuid} :
    skillId ∈ d.skillIdsOf roleId ↔ (roleId, skillId) ∈ d.links := by
  simp only [Database.skillIdsOf, Finset.mem_image, Finset.mem_filter, Prod.exists]
  constructor
  · rintro ⟨_, _, ⟨mem, rfl⟩, rfl⟩
    exact mem
  · exact fun mem => ⟨_, _, ⟨mem, rfl⟩, rfl⟩

theorem mem_assistantsOf {d : Database} {roleId id : Uuid} :
    id ∈ d.assistantsOf roleId ↔ id ∈ d.assistantIds ∧ (d.assistant id).roleId = roleId := by
  rw [Database.assistantsOf, Finset.mem_filter]

/-! ## What stands while a row is held -/

section
variable {held : List Row}

theorem stable_same (d₀ : Database) : Stable rules held (SameRows d₀) :=
  fun _ _ _ _ always _ same => same.trans always

theorem stable_skill {skillId : Uuid} (isHeld : idRow .skill skillId ∈ held) (p : Skill → Prop) :
    Stable rules held fun d => p (d.skill skillId) := by
  intro d d' _ _ _ kept holds
  rw [((kept _ isHeld).skill skillId rfl).1]
  exact holds

theorem stable_activeLinkedRoles {skillId : Uuid} (isHeld : idRow .skill skillId ∈ held)
    (roleIds : Finset Uuid) :
    Stable rules held fun d => d.activeLinkedRoles skillId ⊆ roleIds :=
  fun _ _ _ _ _ kept within => ((kept _ isHeld).skill skillId rfl).2.trans within

theorem stable_unlinked {skillId : Uuid} (isHeld : idRow .skill skillId ∈ held) :
    Stable rules held fun d => d.activeLinkedRoles skillId = ∅ := by
  have within := stable_activeLinkedRoles isHeld ∅
  simp only [Finset.subset_empty] at within
  exact within

theorem stable_role {roleId : Uuid} (isHeld : idRow .role roleId ∈ held) (p : Role → Prop) :
    Stable rules held fun d => p (d.role roleId) := by
  intro d d' _ _ _ kept holds
  rw [((kept _ isHeld).role roleId rfl).1]
  exact holds

theorem stable_skillIdsOf {roleId : Uuid} (isHeld : idRow .role roleId ∈ held)
    (p : Finset Uuid → Prop) : Stable rules held fun d => p (d.skillIdsOf roleId) := by
  intro d d' _ _ _ kept holds
  rw [((kept _ isHeld).role roleId rfl).2.1]
  exact holds

theorem stable_assistantsOf {roleId : Uuid} (isHeld : idRow .role roleId ∈ held)
    (p : Finset Uuid → Prop) : Stable rules held fun d => p (d.assistantsOf roleId) := by
  intro d d' _ _ _ kept holds
  rw [((kept _ isHeld).role roleId rfl).2.2]
  exact holds

theorem stable_assistant {id : Uuid} (isHeld : idRow .assistant id ∈ held) (p : Uuid → Prop) :
    Stable rules held fun d => p (d.assistant id).roleId := by
  intro d d' _ _ _ kept holds
  rw [(kept _ isHeld).assistant id rfl]
  exact holds

theorem stable_imp {p : Prop} {know : Database → Prop} (stable : p → Stable rules held know) :
    Stable rules held fun d => p → know d :=
  fun d d' here there always kept holds so => stable so d d' here there always kept (holds so)

/-! ## The rules for the statements -/

/-- Every row that is held comes before those of the table. -/
def Below (table : Table) (held : List Row) : Prop := ∀ row ∈ held, row.table.rank < table.rank

theorem below_nil (table : Table) : Below table [] := fun _ mem => absurd mem List.not_mem_nil

theorem keeps_leave {know : Database → Prop} : Keeps rules held know leave :=
  .commit fun d right _ => ⟨right, SameRows.refl d, fun row _ => Kept.refl row d⟩

/-- What is known when a statement locks rows is known behind it. -/
theorem keeps_lockRows {table : Table} {keys : Database → Finset Key} {next : Body}
    {know : Database → Prop} (below : Below table held) (stable : Stable rules held know)
    (rest : ∀ d held', Right d → know d → held ⊆ held' →
      (∀ later : Table, table.rank < later.rank → Below later held') →
      (∀ key ∈ keys d, ⟨table, key⟩ ∈ held') →
      Keeps rules held' (fun d' => know d' ∧ SameRows d d') next) :
    Keeps rules held know (lockRows table keys next) := by
  refine .read (fun d d' => know d' ∧ SameRows d d') (fun d _ known => ?_) fun d right known => ?_
  · exact ⟨stable.and (stable_same d), known, SameRows.refl d⟩
  · refine keeps_lockAll (fun before row after place => ?_) ?_
    · refine upwards_of_ascending (rowsOf_ascending table (keys d)) (fun row mem other isHeld => ?_)
        place
      rw [row_lt_iff, (mem_rowsOf.mp mem).1]
      exact .inl (below other isHeld)
    · refine rest d _ right known (List.subset_append_right ..) (fun later lt row mem => ?_) ?_
      · rcases List.mem_append.mp mem with locked | before
        · rw [(mem_rowsOf.mp (List.mem_reverse.mp locked)).1]
          exact lt
        · exact (below row before).trans lt
      · intro key mem
        exact List.mem_append_left _ (List.mem_reverse.mpr (mem_rowsOf.mpr ⟨rfl, mem⟩))

/-- A statement that finds no row locks none. -/
theorem keeps_lockRows_nothing {table : Table} {keys : Database → Finset Key} {next : Body}
    {know : Database → Prop} (stable : Stable rules held know)
    (nothing : ∀ d, Right d → know d → keys d = ∅) (rest : Keeps rules held know next) :
    Keeps rules held know (lockRows table keys next) := by
  refine .read (fun _ => know) (fun d _ known => ⟨stable, known⟩) fun d right known => ?_
  have empty : rowsOf table ∅ = [] := by rw [rowsOf, Finset.sort_empty, List.map_nil]
  rw [nothing d right known, empty]
  exact rest

theorem mem_image_idKey {ids all : Finset Uuid} {id : Uuid} (mem : id ∈ ids) (there : id ∈ all) :
    idKey id ∈ (ids ∩ all).image idKey :=
  Finset.mem_image_of_mem _ (Finset.mem_inter.mpr ⟨mem, there⟩)

end

/-! ## Skills -/

theorem keeps_lockSkillRow {skillId : Uuid} {next : Body}
    (rest : ∀ d₀ held, (skillId ∈ d₀.skillIds → idRow .skill skillId ∈ held) →
      (∀ later : Table, Table.skill.rank < later.rank → Below later held) →
      Keeps rules held (SameRows d₀) next) :
    Keeps rules [] (fun _ => True) (lockSkillRow skillId next) := by
  refine keeps_lockRows (below_nil _) (stable_const rules [] True) ?_
  intro d₀ held _ _ _ below locked
  refine (rest d₀ held (fun there => ?_) below).of_imp fun d _ known => known.2
  exact locked _ (mem_image_idKey (Finset.mem_singleton_self skillId) there)

/-- Behind the scope, no active role is linked to the skill. -/
theorem keeps_lockSkillArchiveScope {skillId : Uuid} {next : Body}
    (rest : ∀ d₀ held, (skillId ∈ d₀.skillIds → idRow .skill skillId ∈ held) →
      Keeps rules held (fun d => SameRows d₀ d ∧
        (skillId ∈ d₀.skillIds → d.activeLinkedRoles skillId = ∅)) next) :
    Keeps rules [] (fun _ => True) (lockSkillArchiveScope skillId next) := by
  refine keeps_lockSkillRow fun d₀ held isHeld below => ?_
  refine .read (fun d d' => SameRows d₀ d' ∧ (skillId ∈ d₀.skillIds →
    d'.activeLinkedRoles skillId ⊆ d.activeLinkedRoles skillId)) ?_ fun d₁ _ _ => ?_
  · intro d _ same
    refine ⟨(stable_same d₀).and (stable_imp fun there => ?_), same, fun _ => subset_rfl⟩
    exact stable_activeLinkedRoles (isHeld there) _
  have stable : Stable rules held fun d => SameRows d₀ d ∧ (skillId ∈ d₀.skillIds →
      d.activeLinkedRoles skillId ⊆ d₁.activeLinkedRoles skillId) :=
    (stable_same d₀).and (stable_imp fun there => stable_activeLinkedRoles (isHeld there) _)
  refine keeps_lockRows (below .role (by decide)) stable fun _ held' _ _ subset below' _ => ?_
  refine .read (fun d d' => SameRows d₀ d' ∧ (skillId ∈ d₀.skillIds →
    ¬ (d₁.activeLinkedRoles skillId ∩ d.activeLinkedRoles skillId).Nonempty →
      d'.activeLinkedRoles skillId ⊆ ∅)) ?_ fun d₂ _ _ => ?_
  · rintro d _ ⟨⟨same, within⟩, -⟩
    refine ⟨(stable_same d₀).and (stable_imp fun there => stable_imp fun _ => ?_), same, ?_⟩
    · exact stable_activeLinkedRoles (subset (isHeld there)) _
    · intro there none_
      rw [Finset.inter_eq_right.mpr (within there)] at none_
      rw [Finset.not_nonempty_iff_eq_empty.mp none_]
  dsimp only
  refine keeps_lockRows (below' .roleSkill (by decide)) ?_ fun _ held'' _ _ subset' _ _ => ?_
  · refine (stable_same d₀).and (stable_imp fun there => stable_imp fun _ => ?_)
    exact stable_activeLinkedRoles (subset (isHeld there)) _
  split
  · exact keeps_leave
  · rename_i none_
    refine (rest d₀ held'' fun there => subset' (subset (isHeld there))).of_imp ?_
    rintro d _ ⟨⟨same, empty⟩, -⟩
    exact ⟨same, fun there => Finset.subset_empty.mp (empty there none_)⟩

theorem activeLinkedRoles_updateSkill (d : Database) (skillId id : Uuid) (row : Skill) :
    (d.updateSkill skillId row).activeLinkedRoles id = d.activeLinkedRoles id := rfl

theorem sameRows_updateSkill (d : Database) (skillId : Uuid) (row : Skill) :
    SameRows d (d.updateSkill skillId row) :=
  ⟨rfl, rfl, rfl, rfl, fun _ => rfl, fun _ => rfl, fun _ => rfl⟩

theorem kept_updateSkill {d : Database} {skillId : Uuid} {row : Row} {skill : Skill}
    (other : row ≠ idRow .skill skillId) : Kept row d (d.updateSkill skillId skill) := by
  refine ⟨fun id isRow => ⟨?_, subset_rfl⟩, fun _ _ => ⟨rfl, rfl, rfl⟩, fun _ _ => rfl⟩
  have apart : id ≠ skillId := fun same => other (same ▸ isRow)
  simp only [Database.updateSkill, if_neg apart]

/-- A skill is archived only where no active role is linked to it. -/
theorem keeps_writeSkill {held : List Row} {d₀ : Database} {know : Database → Prop}
    {skillId : Uuid} {status : Option Status} {now : ℕ}
    (stable : Stable rules held know) (same : ∀ d, know d → SameRows d₀ d)
    (isHeld : skillId ∈ d₀.skillIds → idRow .skill skillId ∈ held)
    (safe : ∀ d, know d → skillId ∈ d₀.skillIds → status = some .archived →
      d.activeLinkedRoles skillId = ∅) :
    Keeps rules held know (writeSkill skillId status now) := by
  refine .read (fun d d' => know d' ∧ (skillId ∈ d₀.skillIds → d'.skill skillId = d.skill skillId))
    ?_ fun d _ known => ?_
  · intro d _ known
    refine ⟨stable.and (stable_imp fun there => ?_), known, fun _ => rfl⟩
    exact stable_skill (isHeld there) (· = d.skill skillId)
  unfold Database.findSkill
  split
  · exact keeps_leave
  · rename_i existing found
    split at found
    · rename_i there
      obtain rfl := Option.some.inj found
      rw [(same d known).skillIds] at there
      refine .commit fun d' right known' => ⟨?_, sameRows_updateSkill .., ?_⟩
      · refine ⟨fun id archived => ?_, right.role, right.owner, right.engaged⟩
        rw [activeLinkedRoles_updateSkill]
        by_cases eq : id = skillId
        · subst eq
          simp only [Database.updateSkill, if_true] at archived
          cases status with
          | none => exact right.usable id (known'.2 there ▸ archived)
          | some next =>
            rw [Option.getD_some] at archived
            exact safe d' known'.1 there (by rw [archived])
        · simp only [Database.updateSkill, if_neg eq] at archived
          exact right.usable id archived
      · exact fun row notHeld => kept_updateSkill fun same => notHeld (same ▸ isHeld there)
    · cases found

theorem keeps_archive (skillId : Uuid) (status : Option Status) (now : ℕ) :
    Keeps rules [] (fun _ => True)
      (lockSkillArchiveScope skillId (writeSkill skillId status now)) := by
  refine keeps_lockSkillArchiveScope fun d₀ held isHeld => ?_
  refine keeps_writeSkill ?_ (fun _ known => known.1) isHeld fun _ known there _ => known.2 there
  exact (stable_same d₀).and (stable_imp fun there => stable_unlinked (isHeld there))

theorem keeps_updateSkill (skillId : Uuid) (status : Option Status) (now : ℕ) :
    Keeps rules [] (fun _ => True) (updateSkill skillId status now) := by
  unfold updateSkill
  split
  · exact keeps_archive ..
  · rename_i other
    refine keeps_lockSkillRow fun d₀ held isHeld _ => ?_
    exact keeps_writeSkill (stable_same d₀) (fun _ same => same) isHeld
      fun _ _ _ archived => absurd archived other

/-! ## Roles -/

section
variable {held : List Row} {roleId : Uuid} {know : Database → Prop}

/-- Behind the check, no assistant has the role. -/
theorem keeps_assertRoleNotInUse {next : Body} (isHeld : idRow .role roleId ∈ held)
    (below : Below .assistant held) (stable : Stable rules held know)
    (rest : ∀ held', held ⊆ held' →
      Keeps rules held' (fun d => know d ∧ d.assistantsOf roleId = ∅) next) :
    Keeps rules held know (assertRoleNotInUse roleId next) := by
  refine .read (fun d d' => know d' ∧ d'.assistantsOf roleId = d.assistantsOf roleId) ?_
    fun d₁ _ _ => ?_
  · intro d _ known
    exact ⟨stable.and (stable_assistantsOf isHeld (· = _)), known, rfl⟩
  refine keeps_lockRows below (stable.and (stable_assistantsOf isHeld (· = _)))
    fun _ held' _ _ subset _ _ => ?_
  refine .read (fun d d' => know d' ∧
    (¬ (d₁.assistantsOf roleId ∩ d.assistantsOf roleId).Nonempty → d'.assistantsOf roleId = ∅)) ?_
    fun d₂ _ _ => ?_
  · rintro d _ ⟨⟨known, same⟩, -⟩
    refine ⟨(stable.mono subset).and (stable_imp fun _ => ?_), known, fun none_ => ?_⟩
    · exact stable_assistantsOf (subset isHeld) (· = ∅)
    · rw [same, Finset.inter_self] at none_
      rw [same, Finset.not_nonempty_iff_eq_empty.mp none_]
  dsimp only
  split
  · exact keeps_leave
  · rename_i none_
    exact (rest held' subset).of_imp fun d _ known => ⟨known.1, known.2 none_⟩

theorem keeps_assertSkillsActive {next : Body} {skillIds : Finset Uuid}
    (stable : Stable rules held know)
    (isHeld : ∀ d, know d → ∀ skillId ∈ skillIds, skillId ∈ d.skillIds →
      idRow .skill skillId ∈ held)
    (rest : Keeps rules held (fun d => know d ∧ ∀ skillId ∈ skillIds,
      idRow .skill skillId ∈ held ∧ (d.skill skillId).isActive = true) next) :
    Keeps rules held know (assertSkillsActive skillIds next) := by
  refine .read (fun d d' => know d' ∧
    ((∀ skillId ∈ skillIds, (d.findSkill skillId).any Skill.isActive = true) →
      ∀ skillId ∈ skillIds, idRow .skill skillId ∈ held ∧ (d'.skill skillId).isActive = true)) ?_
    fun d _ _ => ?_
  · intro d _ known
    have active : (∀ skillId ∈ skillIds, (d.findSkill skillId).any Skill.isActive = true) →
        ∀ skillId ∈ skillIds, idRow .skill skillId ∈ held ∧ (d.skill skillId).isActive = true := by
      intro all skillId mem
      have found := all skillId mem
      rw [Database.findSkill] at found
      split at found
      · rename_i there
        exact ⟨isHeld d known skillId mem there, found⟩
      · cases found
    refine ⟨stable.and (stable_imp fun all => ?_), known, active⟩
    intro d' d'' here there always kept each skillId mem
    have mine := (each skillId mem).1
    exact ⟨mine, stable_skill mine (·.isActive = true) d' d'' here there always kept
      (each skillId mem).2⟩
  split
  · rename_i all
    exact rest.of_imp fun _ _ known => ⟨known.1, known.2 all⟩
  · exact keeps_leave

theorem sameRows_updateRole (d : Database) (roleId : Uuid) (status : Status) :
    SameRows d (d.updateRole roleId status) :=
  ⟨rfl, rfl, rfl, rfl, fun _ => rfl, fun _ => rfl, fun _ => rfl⟩

theorem kept_updateRole {d : Database} {next : Status} {row : Row}
    (other : row ≠ idRow .role roleId)
    (skills : next = .active → (d.role roleId).status ≠ .active →
      ∀ skillId ∈ d.skillIdsOf roleId, row ≠ idRow .skill skillId) :
    Kept row d (d.updateRole roleId next) := by
  refine ⟨fun id isRow => ⟨rfl, fun roleId' mem => ?_⟩, fun id isRow => ⟨?_, rfl, rfl⟩,
    fun _ _ => rfl⟩
  · obtain ⟨there, active, linked⟩ := mem_activeLinkedRoles.mp mem
    refine mem_activeLinkedRoles.mpr ⟨there, ?_, linked⟩
    by_cases eq : roleId' = roleId
    · subst eq
      simp only [Database.updateRole, if_true] at active
      by_contra inactive
      exact skills active inactive id (mem_skillIdsOf.mpr linked) isRow
    · simpa only [Database.updateRole, if_neg eq] using active
  · have apart : id ≠ roleId := fun same => other (same ▸ isRow)
    simp only [Database.updateRole, if_neg apart]

/-- The status of a role changes: away from active without assistants, to active with the skills
locked and active. -/
theorem keeps_commitRole {next : Status} (isHeld : idRow .role roleId ∈ held)
    (safe : ∀ d, Right d → know d → (next ≠ .active → d.assistantsOf roleId = ∅) ∧
      (next = .active → (d.role roleId).status ≠ .active → ∀ skillId ∈ d.skillIdsOf roleId,
        idRow .skill skillId ∈ held ∧ (d.skill skillId).isActive = true)) :
    Keeps rules held know (.commit fun d => d.updateRole roleId next) := by
  refine .commit fun d right known => ⟨?_, sameRows_updateRole .., fun row notHeld => ?_⟩
  · obtain ⟨unused, activates⟩ := safe d right known
    refine ⟨fun skillId archived => ?_, fun id mem => ?_, right.owner, right.engaged⟩
    · rw [Finset.eq_empty_iff_forall_notMem]
      intro roleId' mem'
      obtain ⟨there, active, linked⟩ := mem_activeLinkedRoles.mp mem'
      have before := right.usable skillId archived
      by_cases same : roleId' = roleId ∧ (d.role roleId).status ≠ .active
      · obtain ⟨rfl, inactive⟩ := same
        simp only [Database.updateRole, if_true] at active
        have isActive := (activates active inactive skillId (mem_skillIdsOf.mpr linked)).2
        have archived' : (d.skill skillId).status = .archived := archived
        rw [Skill.isActive, archived'] at isActive
        cases isActive
      · have still : roleId' ∈ d.activeLinkedRoles skillId := by
          refine mem_activeLinkedRoles.mpr ⟨there, ?_, linked⟩
          by_cases eq : roleId' = roleId
          · subst eq
            by_contra inactive
            exact same ⟨rfl, inactive⟩
          · simpa only [Database.updateRole, if_neg eq] using active
        rw [before] at still
        exact absurd still (Finset.notMem_empty _)
    · obtain ⟨there, active⟩ := right.role id mem
      refine ⟨there, ?_⟩
      by_cases eq : (d.assistant id).roleId = roleId
      · simp only [Database.updateRole, eq, if_true]
        by_contra inactive
        have none_ := unused inactive
        have some_ : id ∈ d.assistantsOf roleId := mem_assistantsOf.mpr ⟨mem, eq⟩
        rw [none_] at some_
        exact absurd some_ (Finset.notMem_empty _)
      · simpa only [Database.updateRole, if_neg eq] using active
  · refine kept_updateRole (fun same => notHeld (same ▸ isHeld))
        fun active inactive id mem same => ?_
    exact notHeld (same ▸ ((safe d right known).2 active inactive id mem).1)

theorem keeps_lockRoleAssistants {next : Finset Uuid → Body} (isHeld : idRow .role roleId ∈ held)
    (below : Below .assistant held) (stable : Stable rules held know)
    (rest : ∀ assistantIds held', held ⊆ held' →
      (∀ later : Table, Table.assistant.rank < later.rank → Below later held') →
      Keeps rules held' (fun d => know d ∧ d.assistantsOf roleId = assistantIds)
        (next assistantIds)) :
    Keeps rules held know (lockRoleAssistants roleId next) := by
  have stable' : ∀ ids, Stable rules held fun d => know d ∧ d.assistantsOf roleId = ids :=
    fun ids => stable.and (stable_assistantsOf isHeld (· = ids))
  refine .read (fun d d' => know d' ∧ d'.assistantsOf roleId = d.assistantsOf roleId)
    (fun d _ known => ⟨stable' _, known, rfl⟩) fun d₁ _ _ => ?_
  refine keeps_lockRows below (stable' _) fun _ held' _ _ subset below' _ => ?_
  exact (rest _ held' subset below').of_imp fun _ _ known => known.1

theorem keeps_writeRole {next : Status} (isHeld : idRow .role roleId ∈ held)
    (below : Below .assistant held) (stable : Stable rules held know)
    (safe : ∀ d, Right d → know d → (next ≠ .active → d.assistantsOf roleId = ∅) ∧
      (next = .active → (d.role roleId).status ≠ .active → ∀ skillId ∈ d.skillIdsOf roleId,
        idRow .skill skillId ∈ held ∧ (d.skill skillId).isActive = true)) :
    Keeps rules held know (writeRole roleId next) := by
  refine keeps_lockRoleAssistants isHeld below stable fun _ held' subset _ => ?_
  refine keeps_commitRole (subset isHeld) fun d right known => ?_
  obtain ⟨unused, activates⟩ := safe d right known.1
  refine ⟨unused, fun active inactive skillId mem => ?_⟩
  obtain ⟨mine, isActive⟩ := activates active inactive skillId mem
  exact ⟨subset mine, isActive⟩

/-- Where no assistant has the role, none is locked again. -/
theorem keeps_writeRole_unused {next : Status} (inactive : next ≠ .active)
    (isHeld : idRow .role roleId ∈ held) (stable : Stable rules held know) :
    Keeps rules held (fun d => know d ∧ d.assistantsOf roleId = ∅) (writeRole roleId next) := by
  have stable' : Stable rules held fun d => know d ∧ d.assistantsOf roleId = ∅ :=
    stable.and (stable_assistantsOf isHeld (· = ∅))
  refine .read (fun _ d => know d ∧ d.assistantsOf roleId = ∅)
    (fun d _ known => ⟨stable', known⟩) fun d₁ _ known => ?_
  refine keeps_lockRows_nothing stable' (fun d _ _ => ?_) ?_
  · rw [known.2, Finset.empty_inter, Finset.image_empty]
  · exact keeps_commitRole isHeld fun d _ known' =>
      ⟨fun _ => known'.2, fun active => absurd active inactive⟩

/-- Once the role is locked, with the skills of the snapshot where it shall be activated. -/
theorem keeps_updateLockedRole {status : Option Status} {advisoryActivating : Bool}
    {snapshotSkillIds : Finset Uuid} (d₀ : Database) (below : Below .assistant held)
    (isHeld : roleId ∈ d₀.roleIds → idRow .role roleId ∈ held)
    (skills : advisoryActivating = true → ∀ skillId ∈ snapshotSkillIds, skillId ∈ d₀.skillIds →
      idRow .skill skillId ∈ held) :
    Keeps rules held (SameRows d₀)
      (updateLockedRole roleId status advisoryActivating snapshotSkillIds) := by
  refine .read (fun d d' => SameRows d₀ d' ∧ (roleId ∈ d₀.roleIds →
    d'.role roleId = d.role roleId ∧ d'.skillIdsOf roleId = d.skillIdsOf roleId)) ?_
    fun d _ known => ?_
  · intro d _ known
    refine ⟨(stable_same d₀).and (stable_imp fun there => ?_), known, fun _ => ⟨rfl, rfl⟩⟩
    exact (stable_role (isHeld there) (· = _)).and (stable_skillIdsOf (isHeld there) (· = _))
  unfold Database.findRole
  split
  · exact keeps_leave
  rename_i locked found
  split at found
  swap
  · cases found
  rename_i there
  obtain rfl := Option.some.inj found
  rw [known.roleIds] at there
  have mine := isHeld there
  have stable' : Stable rules held fun d' => SameRows d₀ d' ∧ (roleId ∈ d₀.roleIds →
      d'.role roleId = d.role roleId ∧ d'.skillIdsOf roleId = d.skillIdsOf roleId) :=
    (stable_same d₀).and (stable_imp fun there =>
      (stable_role (isHeld there) (· = _)).and (stable_skillIdsOf (isHeld there) (· = _)))
  dsimp only
  split
  · exact keeps_leave
  rename_i covered
  split
  · exact keeps_leave
  split
  · rename_i leaves
    refine keeps_assertRoleNotInUse mine below stable' fun held' subset => ?_
    exact keeps_writeRole_unused leaves.1 (subset mine) (stable'.mono subset)
  rename_i stays
  split
  · rename_i activating
    obtain ⟨advisory, rfl⟩ :
        advisoryActivating = true ∧ d.skillIdsOf roleId = snapshotSkillIds := by
      by_contra other
      refine covered ⟨activating, ?_⟩
      by_cases advisory : advisoryActivating = true
      · exact .inr fun eq => other ⟨advisory, eq⟩
      · exact .inl advisory
    refine keeps_assertSkillsActive stable' (fun d' known' skillId mem there' => ?_) ?_
    · rw [known'.1.skillIds] at there'
      exact skills advisory skillId mem there'
    · refine keeps_writeRole mine below ?_ fun d' _ known' => ?_
      · refine stable'.and fun d' d'' here there always kept each skillId mem => ?_
        obtain ⟨locked, isActive⟩ := each skillId mem
        exact ⟨locked,
          stable_skill locked (·.isActive = true) d' d'' here there always kept isActive⟩
      · refine ⟨fun inactive => absurd activating.2 inactive, fun _ _ skillId mem => ?_⟩
        rw [(known'.1.2 there).2] at mem
        exact known'.2 skillId mem
  · rename_i quiet
    refine keeps_writeRole mine below stable' fun d' right known' => ⟨fun inactive => ?_, ?_⟩
    · -- it was not active before, and then no assistant has it
      rw [Finset.eq_empty_iff_forall_notMem]
      intro id mem
      obtain ⟨isThere, rfl⟩ := mem_assistantsOf.mp mem
      refine stays ⟨inactive, ?_⟩
      rw [← (known'.2 there).1]
      exact (right.role id isThere).2
    · intro active inactive
      rw [(known'.2 there).1] at inactive
      exact absurd ⟨inactive, active⟩ quiet

end

theorem keeps_updateRole (roleId : Uuid) (status : Option Status) :
    Keeps rules [] (fun _ => True) (updateRole roleId status) := by
  refine .read (fun _ _ => True) (fun _ _ _ => ⟨stable_const rules [] True, trivial⟩)
    fun d _ _ => ?_
  split
  · exact keeps_leave
  · dsimp only
    split
    · refine keeps_lockRows (below_nil _) (stable_const rules [] True)
        fun d₀ held _ _ _ below skills => ?_
      refine keeps_lockRows (below .role (by decide)) ((stable_const rules held True).and
        (stable_same d₀)) fun d₁ held' _ known subset below' locked => ?_
      refine (keeps_updateLockedRole d₀ (below' .assistant (by decide)) (fun there => ?_)
        fun _ skillId mem there => ?_).of_imp fun _ _ known => known.1.2
      · rw [← known.2.roleIds] at there
        exact locked _ (mem_image_idKey (Finset.mem_singleton_self roleId) there)
      · exact subset (skills _ (mem_image_idKey mem there))
    · refine keeps_lockRows (below_nil _) (stable_const rules [] True)
        fun d₀ held _ _ _ below locked => ?_
      refine (keeps_updateLockedRole d₀ (below .assistant (by decide)) (fun there => ?_)
        fun advisory => ?_).of_imp fun _ _ known => known.2
      · exact locked _ (mem_image_idKey (Finset.mem_singleton_self roleId) there)
      · cases advisory

theorem keeps_archiveRole (roleId : Uuid) :
    Keeps rules [] (fun _ => True) (archiveRole roleId) := by
  refine keeps_lockRows (below_nil _) (stable_const rules [] True)
    fun d₀ held _ _ _ below locked => ?_
  refine .read (fun _ => SameRows d₀) (fun _ _ known => ⟨stable_same d₀, known.2⟩)
    fun d _ known => ?_
  unfold Database.findRole
  split
  · exact keeps_leave
  rename_i existing found
  split at found
  swap
  · cases found
  rename_i there
  rw [known.2.roleIds] at there
  have mine := locked _ (mem_image_idKey (Finset.mem_singleton_self roleId) there)
  split
  · exact keeps_leave
  refine keeps_assertRoleNotInUse mine (below .assistant (by decide)) (stable_same d₀)
    fun held' subset => ?_
  split
  · exact keeps_leave
  · exact keeps_writeRole_unused (by decide) (subset mine) (stable_same d₀)

section
variable {held : List Row} {roleId : Uuid} {know : Database → Prop}

theorem mem_replaceLinks {d : Database} {skillIds : Finset Uuid} {link : Uuid × Uuid} :
    link ∈ (d.replaceLinks roleId skillIds).links ↔
      link.1 ≠ roleId ∧ link ∈ d.links ∨ link.1 = roleId ∧ link.2 ∈ skillIds := by
  obtain ⟨role, skill⟩ := link
  simp only [Database.replaceLinks, Finset.mem_union, Finset.mem_filter, Finset.mem_image,
    Prod.mk.injEq]
  constructor
  · rintro (⟨mem, other⟩ | ⟨_, mem, rfl, rfl⟩)
    · exact .inl ⟨other, mem⟩
    · exact .inr ⟨rfl, mem⟩
  · rintro (⟨other, mem⟩ | ⟨rfl, mem⟩)
    · exact .inl ⟨mem, other⟩
    · exact .inr ⟨skill, mem, rfl, rfl⟩

/-- A chat that still uses a skill was not cleared. -/
theorem activeSkillId_clearChats {d : Database} {assistantIds : Finset Uuid} {id skillId : Uuid}
    (active : ((d.clearChats assistantIds).chat id).activeSkillId = some skillId) :
    (d.chat id).assistantId ∉ assistantIds ∧ (d.chat id).activeSkillId = some skillId := by
  simp only [Database.clearChats] at active
  split at active
  · cases active
  · rename_i other
    exact ⟨other, active⟩

theorem assistantId_clearChats (d : Database) (assistantIds : Finset Uuid) (id : Uuid) :
    ((d.clearChats assistantIds).chat id).assistantId = (d.chat id).assistantId := by
  simp only [Database.clearChats]
  split <;> rfl

/-- The skills of a role are replaced, with those that it gets locked and active, and with the
chats of all its assistants cleared. -/
theorem keeps_commitLinks {requestedSkillIds assistantIds : Finset Uuid}
    (isHeld : idRow .role roleId ∈ held)
    (safe : ∀ d, Right d → know d → d.assistantsOf roleId = assistantIds ∧
      ∀ skillId ∈ requestedSkillIds,
        idRow .skill skillId ∈ held ∧ (d.skill skillId).isActive = true) :
    Keeps rules held know
      (.commit fun d => (d.replaceLinks roleId requestedSkillIds).clearChats assistantIds) := by
  refine .commit fun d right known => ?_
  obtain ⟨assistants, skills⟩ := safe d right known
  -- an active role gets no link but to the skills that were asked for
  have gains : ∀ {id role}, role ∈ ((d.replaceLinks roleId requestedSkillIds).clearChats
      assistantIds).activeLinkedRoles id →
      role ∈ d.activeLinkedRoles id ∨ id ∈ requestedSkillIds := by
    intro id role mem
    obtain ⟨there, active, linked⟩ := mem_activeLinkedRoles.mp mem
    rcases mem_replaceLinks.mp linked with ⟨-, before⟩ | ⟨-, asked⟩
    · exact .inl (mem_activeLinkedRoles.mpr ⟨there, active, before⟩)
    · exact .inr asked
  refine ⟨⟨fun id archived => ?_, right.role, ?_, fun id mem skillId active => ?_⟩,
    ⟨rfl, rfl, rfl, rfl, assistantId_clearChats _ _, fun _ => rfl, fun _ => rfl⟩,
    fun row notHeld => ⟨fun id isRow => ⟨rfl, fun role mem => ?_⟩, fun id isRow => ⟨rfl, ?_, rfl⟩,
      fun _ _ => rfl⟩⟩
  · rw [Finset.eq_empty_iff_forall_notMem]
    intro role mem
    rcases gains mem with before | asked
    · rw [right.usable id archived] at before
      exact absurd before (Finset.notMem_empty _)
    · have isActive := (skills id asked).2
      have archived' : (d.skill id).status = .archived := archived
      rw [Skill.isActive, archived'] at isActive
      cases isActive
  · intro id mem
    rw [assistantId_clearChats]
    exact right.owner id mem
  · obtain ⟨kept, active'⟩ := activeSkillId_clearChats active
    rw [assistantId_clearChats]
    refine mem_replaceLinks.mpr (.inl ⟨fun same => kept ?_, right.engaged id mem skillId active'⟩)
    rw [← assistants]
    exact mem_assistantsOf.mpr ⟨right.owner id mem, same⟩
  · rcases gains mem with before | asked
    · exact before
    · exact absurd (isRow ▸ (skills id asked).1) notHeld
  · have other : id ≠ roleId := fun same => notHeld (isRow ▸ same ▸ isHeld)
    ext skillId
    rw [mem_skillIdsOf, mem_skillIdsOf]
    have links : (id, skillId) ∈ (d.replaceLinks roleId requestedSkillIds).links ↔ _ :=
      mem_replaceLinks
    exact links.trans ⟨fun either => (either.resolve_right fun same => other same.1).2,
      fun mem => .inl ⟨other, mem⟩⟩

theorem keeps_replaceLockedSkills {requestedSkillIds currentSkillIds assistantIds : Finset Uuid}
    {immutable : Bool} {d₀ : Database} (isHeld : idRow .role roleId ∈ held)
    (skills : ∀ skillId ∈ requestedSkillIds, skillId ∈ d₀.skillIds → idRow .skill skillId ∈ held) :
    Keeps rules held (fun d => SameRows d₀ d ∧ d.assistantsOf roleId = assistantIds)
      (replaceLockedSkills roleId requestedSkillIds currentSkillIds immutable assistantIds) := by
  have stable : Stable rules held fun d => SameRows d₀ d ∧ d.assistantsOf roleId = assistantIds :=
    (stable_same d₀).and (stable_assistantsOf isHeld (· = assistantIds))
  refine .read (fun _ d => SameRows d₀ d ∧ d.assistantsOf roleId = assistantIds)
    (fun _ _ known => ⟨stable, known⟩) fun d _ _ => ?_
  dsimp only
  split
  · exact keeps_leave
  split
  · exact keeps_leave
  refine keeps_assertSkillsActive stable (fun d known skillId mem there => ?_) ?_
  · rw [known.1.skillIds] at there
    exact skills skillId mem there
  · exact keeps_commitLinks isHeld fun d _ known => ⟨known.1.2, known.2⟩

end

theorem keeps_replaceSkills (roleId : Uuid) (requestedSkillIds : Finset Uuid) :
    Keeps rules [] (fun _ => True) (replaceSkills roleId requestedSkillIds) := by
  refine .read (fun _ _ => True) (fun _ _ _ => ⟨stable_const rules [] True, trivial⟩)
    fun d _ _ => ?_
  refine keeps_lockRows (below_nil _) (stable_const rules [] True)
    fun d₀ held _ _ _ below skills => ?_
  refine keeps_lockRows (below .role (by decide)) ((stable_const rules held True).and
    (stable_same d₀)) fun d₁ held₁ _ known subset below₁ locked => ?_
  refine .read (fun _ => SameRows d₀) (fun _ _ known => ⟨stable_same d₀, known.1.2⟩)
    fun d₂ _ known₂ => ?_
  unfold Database.findRole
  split
  · exact keeps_leave
  rename_i role found
  split at found
  swap
  · cases found
  rename_i there
  rw [known₂.1.2.roleIds, ← known.2.roleIds] at there
  have mine := locked _ (mem_image_idKey (Finset.mem_singleton_self roleId) there)
  split
  · exact keeps_leave
  refine keeps_lockRoleAssistants mine (below₁ .assistant (by decide)) (stable_same d₀)
    fun assistantIds held₂ subset₂ below₂ => ?_
  have stable : ∀ {more}, held₂ ⊆ more → Stable rules more fun d =>
      SameRows d₀ d ∧ d.assistantsOf roleId = assistantIds := fun sub =>
    (stable_same d₀).and (stable_assistantsOf (sub (subset₂ mine)) (· = assistantIds))
  refine keeps_lockRows (below₂ .chat (by decide)) (stable (List.Subset.refl held₂))
    fun d₃ held₃ _ _ subset₃ below₃ _ => ?_
  refine keeps_lockRows (below₃ .roleSkill (by decide)) ((stable subset₃).and (stable_same d₃))
    fun d₄ held₄ _ _ subset₄ _ _ => ?_
  have all : held₂ ⊆ held₄ := fun row mem => subset₄ (subset₃ mem)
  refine (keeps_replaceLockedSkills (all (subset₂ mine)) fun skillId mem there' => ?_).of_imp
    fun _ _ known => known.1.1
  exact all (subset₂ (subset (skills _ (mem_image_idKey (Finset.mem_union_right _ mem) there'))))

/-! ## The role of an assistant -/

section
variable {held : List Row} {know : Database → Prop}

/-- An assistant changes from a role that is locked to an active one that is, and its chats are
cleared. -/
theorem keeps_commitAssistant {assistantId roleId targetRoleId : Uuid}
    (isHeld : idRow .assistant assistantId ∈ held) (leaves : idRow .role roleId ∈ held)
    (enters : idRow .role targetRoleId ∈ held)
    (safe : ∀ d, know d → (d.assistant assistantId).roleId = roleId ∧ targetRoleId ∈ d.roleIds ∧
      (d.role targetRoleId).status = .active) :
    Keeps rules held know
      (.commit fun d => (d.updateAssistant assistantId targetRoleId).clearChats {assistantId}) := by
  refine .commit fun d right known => ?_
  obtain ⟨before, there, active⟩ := safe d known
  have role_of : ∀ id, ((d.updateAssistant assistantId targetRoleId).assistant id).roleId =
      if id = assistantId then targetRoleId else (d.assistant id).roleId := by
    intro id
    simp only [Database.updateAssistant]
    split <;> rfl
  refine ⟨⟨right.usable, fun id mem => ?_, fun id mem => ?_, fun id mem skillId active => ?_⟩,
    ⟨rfl, rfl, rfl, rfl, assistantId_clearChats _ _, fun id => ?_, fun id => ?_⟩,
    fun row notHeld => ⟨fun _ _ => ⟨rfl, subset_rfl⟩, fun id isRow => ⟨rfl, rfl, ?_⟩,
      fun id isRow => ?_⟩⟩
  · have both : ∀ role, role = (if id = assistantId then targetRoleId else
        (d.assistant id).roleId) → role ∈ d.roleIds ∧ (d.role role).status = .active := by
      rintro role rfl
      split
      · exact ⟨there, active⟩
      · exact right.role id mem
    exact both _ (role_of id)
  · rw [assistantId_clearChats]
    exact right.owner id mem
  · obtain ⟨kept, active'⟩ := activeSkillId_clearChats active
    rw [assistantId_clearChats]
    have other : (d.chat id).assistantId ≠ assistantId :=
      fun same => kept (Finset.mem_singleton.mpr same)
    have role := role_of (d.chat id).assistantId
    rw [if_neg other] at role
    have linked := right.engaged id mem skillId active'
    rw [← role] at linked
    exact linked
  · simp only [Database.clearChats, Database.updateAssistant]
    split <;> rfl
  · simp only [Database.clearChats, Database.updateAssistant]
    split <;> rfl
  · have other : id ≠ roleId := fun same => notHeld (isRow ▸ same ▸ leaves)
    have other' : id ≠ targetRoleId := fun same => notHeld (isRow ▸ same ▸ enters)
    ext member
    have members : member ∈ (d.updateAssistant assistantId targetRoleId).assistantsOf id ↔ _ :=
      mem_assistantsOf
    refine members.trans ?_
    rw [mem_assistantsOf, role_of]
    split
    · rename_i same
      rw [same, before]
      exact and_congr_right fun _ => iff_of_false (Ne.symm other') (Ne.symm other)
    · exact Iff.rfl
  · have other : id ≠ assistantId := fun same => notHeld (isRow ▸ same ▸ isHeld)
    have role := role_of id
    rwa [if_neg other] at role

theorem mem_owned {input : RoleSelection} {d : Database} :
    input.assistantId ∈ input.owned d ↔ input.assistantId ∈ d.assistantIds ∧
      (d.assistant input.assistantId).userId = input.ownerUserId ∧
      (d.assistant input.assistantId).workspaceId = input.workspaceId := by
  simp [RoleSelection.owned]

theorem keeps_selectRole {input : RoleSelection} {targetRoleId : Uuid} {d₀ : Database}
    (below : Below .assistant held)
    (current : input.expectedCurrentRoleId ∈ d₀.roleIds →
      idRow .role input.expectedCurrentRoleId ∈ held)
    (there : targetRoleId ∈ d₀.roleIds) (target : idRow .role targetRoleId ∈ held) :
    Keeps rules held
      (fun d => SameRows d₀ d ∧ (d.role targetRoleId).status = .active)
      (selectRole input targetRoleId) := by
  have stable : ∀ {more}, held ⊆ more → Stable rules more fun d =>
      SameRows d₀ d ∧ (d.role targetRoleId).status = .active := fun sub =>
    (stable_same d₀).and (stable_role (sub target) (·.status = .active))
  refine keeps_lockRows below (stable (List.Subset.refl held))
    fun d₁ held₁ _ _ subset below₁ locked => ?_
  refine .read (fun d d' => (SameRows d₀ d' ∧ (d'.role targetRoleId).status = .active) ∧
    (input.assistantId ∈ input.owned d₁ →
      (d'.assistant input.assistantId).roleId = (d.assistant input.assistantId).roleId)) ?_
    fun d₂ _ known => ?_
  · intro d _ known
    refine ⟨(stable subset).and (stable_imp fun owned => ?_), known.1, fun _ => rfl⟩
    exact stable_assistant (locked _ (Finset.mem_image_of_mem _ owned)) (· = _)
  dsimp only
  split
  · exact keeps_leave
  rename_i owned
  have owned₁ : input.assistantId ∈ input.owned d₁ := by
    rw [not_not, mem_owned, known.2.assistantIds, known.2.userId, known.2.workspaceId] at owned
    exact mem_owned.mpr owned
  have mine := locked _ (Finset.mem_image_of_mem _ owned₁)
  split
  · exact keeps_leave
  rename_i expected
  rw [not_not] at expected
  split
  · exact keeps_leave
  rename_i isThere
  rw [not_not, expected, known.1.1.roleIds] at isThere
  split
  · exact keeps_leave
  refine keeps_lockRows (below₁ .chat (by decide)) ((stable subset).and (stable_imp fun _ =>
    stable_assistant mine (· = _))) fun _ held₂ _ _ subset₂ _ _ => ?_
  refine keeps_commitAssistant (subset₂ mine) (subset₂ (subset (current isThere)))
    (subset₂ (subset target)) fun d known' => ⟨?_, ?_, known'.1.1.2⟩
  · exact (known'.1.2 owned₁).trans expected
  · rw [known'.1.1.1.roleIds]
    exact there

end

theorem keeps_applyRoleSelection (input : RoleSelection) :
    Keeps rules [] (fun _ => True) (applyRoleSelection input) := by
  have unknown := stable_const rules [] True
  refine .read (fun _ _ => True) (fun _ _ _ => ⟨unknown, trivial⟩) fun d _ _ => ?_
  split
  · exact keeps_leave
  refine .read (fun _ _ => True) (fun _ _ _ => ⟨unknown, trivial⟩) fun d _ _ => ?_
  dsimp only
  split
  · exact keeps_leave
  rename_i targetRoleId _
  refine keeps_lockRows (below_nil _) unknown fun d₀ held _ _ _ below locked => ?_
  have current : input.expectedCurrentRoleId ∈ d₀.roleIds →
      idRow .role input.expectedCurrentRoleId ∈ held := fun there =>
    locked _ (mem_image_idKey (Finset.mem_insert_self ..) there)
  by_cases there : targetRoleId ∈ d₀.roleIds
  · have target : idRow .role targetRoleId ∈ held :=
      locked _ (mem_image_idKey (Finset.mem_insert_of_mem (Finset.mem_singleton_self _)) there)
    refine .read (fun d d' => SameRows d₀ d' ∧ ((d.role targetRoleId).status = .active →
      (d'.role targetRoleId).status = .active)) ?_ fun d₁ _ known => ?_
    · intro d _ known
      refine ⟨(stable_same d₀).and (stable_imp fun _ => ?_), known.2, id⟩
      exact stable_role target (·.status = .active)
    split
    · rename_i found
      rw [Database.findRole, known.2.roleIds, if_pos there] at found
      refine (keeps_selectRole (below .assistant (by decide)) current there target).of_imp ?_
      exact fun d _ known' => ⟨known'.1, known'.2 (of_decide_eq_true found)⟩
    · exact keeps_leave
  · refine .read (fun _ => SameRows d₀) (fun _ _ known => ⟨stable_same d₀, known.2⟩)
      fun d₁ _ known => ?_
    rw [Database.findRole, known.2.roleIds, if_neg there]
    exact keeps_leave

/-! ## The skill of a chat -/

section
variable {held : List Row} {know : Database → Prop}

/-- A chat takes up a skill that is linked to the role of its assistant. -/
theorem keeps_commitChat {chatId : Uuid} {activeSkillId : Option Uuid}
    (safe : ∀ d, know d → ∀ skillId, activeSkillId = some skillId →
      ((d.assistant (d.chat chatId).assistantId).roleId, skillId) ∈ d.links) :
    Keeps rules held know (.commit fun d => d.updateChat chatId activeSkillId) := by
  refine .commit fun d right known => ?_
  have owner : ∀ id, ((d.updateChat chatId activeSkillId).chat id).assistantId =
      (d.chat id).assistantId := by
    intro id
    simp only [Database.updateChat]
    split <;> rfl
  refine ⟨⟨right.usable, right.role, fun id mem => ?_, fun id mem skillId active => ?_⟩,
    ⟨rfl, rfl, rfl, rfl, owner, fun _ => rfl, fun _ => rfl⟩,
    fun row _ => ⟨fun _ _ => ⟨rfl, subset_rfl⟩, fun _ _ => ⟨rfl, rfl, rfl⟩, fun _ _ => rfl⟩⟩
  · rw [owner]
    exact right.owner id mem
  · rw [owner]
    simp only [Database.updateChat] at active
    split at active
    · rename_i same
      rw [same]
      exact safe d known skillId active
    · exact right.engaged id mem skillId active

theorem keeps_writeSkillState {input : SkillStateInput} (chatId : Uuid)
    (role : idRow .role input.expectedRoleId ∈ held)
    (assistant : idRow .assistant input.assistantId ∈ held) (below : Below .roleSkill held)
    {d₀ : Database} (owner : (d₀.chat chatId).assistantId = input.assistantId) :
    Keeps rules held
      (fun d => SameRows d₀ d ∧ (d.assistant input.assistantId).roleId = input.expectedRoleId)
      (writeSkillState input chatId) := by
  have stable : ∀ {more}, held ⊆ more → Stable rules more fun d =>
      SameRows d₀ d ∧ (d.assistant input.assistantId).roleId = input.expectedRoleId := fun sub =>
    (stable_same d₀).and (stable_assistant (sub assistant) (· = _))
  unfold writeSkillState
  split
  · rename_i released
    refine keeps_commitChat fun d _ skillId active => ?_
    -- only what is released names no skill to lock
    cases action : input.action <;> rw [action] at released active
    · cases released
    · cases active
  · rename_i skillId target
    refine keeps_lockRows below (stable (List.Subset.refl held)) fun _ held₁ _ _ subset _ _ => ?_
    refine .read (fun d d' => (SameRows d₀ d' ∧
      (d'.assistant input.assistantId).roleId = input.expectedRoleId) ∧
      (skillId ∈ d.skillIdsOf input.expectedRoleId →
        skillId ∈ d'.skillIdsOf input.expectedRoleId)) ?_ fun d _ known => ?_
    · intro d _ known
      refine ⟨(stable subset).and (stable_imp fun _ => ?_), known.1, id⟩
      exact stable_skillIdsOf (subset role) (skillId ∈ ·)
    split
    · rename_i linked
      refine keeps_commitChat fun d' known' other active => ?_
      have same : other = skillId := by
        cases action : input.action <;> rw [action] at target active
        · exact (Option.some.inj active).symm.trans (Option.some.inj target)
        · cases active
      rw [known'.1.1.assistantId, owner, known'.1.2, same]
      exact mem_skillIdsOf.mp (known'.2 (mem_skillIdsOf.mpr linked))
    · exact keeps_leave

theorem keeps_applyToChat {input : SkillStateInput}
    (role : idRow .role input.expectedRoleId ∈ held)
    (assistant : idRow .assistant input.assistantId ∈ held) (below : Below .chat held) :
    Keeps rules held (fun d => (d.assistant input.assistantId).roleId = input.expectedRoleId)
      (applyToChat input) := by
  refine keeps_lockRows below (stable_assistant assistant (· = _))
    fun _ held₁ _ _ subset below₁ _ => ?_
  have mine := subset assistant
  refine .read (fun d d' => SameRows d d' ∧
    (d'.assistant input.assistantId).roleId = input.expectedRoleId) ?_ fun d _ _ => ?_
  · intro d _ known
    exact ⟨(stable_same d).and (stable_assistant mine (· = _)), SameRows.refl d, known.1⟩
  split
  · exact keeps_leave
  rename_i chatId found
  have owner : (d.chat chatId).assistantId = input.assistantId := by
    have mem := (Finset.mem_sort _).mp (List.mem_of_mem_head? found)
    exact (Finset.mem_filter.mp mem).2.1
  have writes := keeps_writeSkillState chatId (subset role) mine
    (below₁ .roleSkill (by decide)) owner
  split
  · exact writes
  · split
    · exact writes
    · exact keeps_leave

theorem keeps_applyToAssistant {input : SkillStateInput} (below : Below .role held) :
    Keeps rules held (fun _ => True) (applyToAssistant input) := by
  refine keeps_lockRows below (stable_const rules held True) fun d₀ held₁ _ _ _ below₁ locked => ?_
  refine .read (fun _ => SameRows d₀) (fun _ _ known => ⟨stable_same d₀, known.2⟩)
    fun d₁ _ known => ?_
  rw [Database.findRole, known.2.roleIds]
  by_cases there : input.expectedRoleId ∈ d₀.roleIds
  swap
  · rw [if_neg there]
    exact keeps_leave
  have role := locked _ (mem_image_idKey (Finset.mem_singleton_self _) there)
  rw [if_pos there]
  split
  swap
  · exact keeps_leave
  refine keeps_lockRows (below₁ .assistant (by decide)) (stable_same d₀)
    fun d₂ held₂ _ _ subset below₂ locked' => ?_
  refine .read (fun d d' => input.assistantId ∈ d₂.assistantIds →
    (d'.assistant input.assistantId).roleId = (d.assistant input.assistantId).roleId) ?_
    fun d₃ _ known' => ?_
  · refine fun d _ _ => ⟨stable_imp fun isThere => ?_, fun _ => rfl⟩
    exact stable_assistant (locked' _ (mem_image_idKey (Finset.mem_singleton_self _) isThere))
      (· = _)
  split
  · exact keeps_leave
  rename_i isThere
  rw [not_not, known'.2.assistantIds] at isThere
  split
  · exact keeps_leave
  rename_i expected
  rw [not_not] at expected
  have assistant := locked' _ (mem_image_idKey (Finset.mem_singleton_self _) isThere)
  refine (keeps_applyToChat (subset role) assistant (below₂ .chat (by decide))).of_imp ?_
  exact fun d _ known => (known isThere).trans expected

end

theorem keeps_applyWithCandidate (input : SkillStateInput) :
    Keeps rules [] (fun _ => True) (applyWithCandidate input) := by
  unfold applyWithCandidate
  split
  · exact keeps_applyToAssistant (below_nil _)
  · refine keeps_lockSkillRow fun d₀ held _ below => ?_
    refine .read (fun _ _ => True) (fun _ _ _ => ⟨stable_const rules held True, trivial⟩) ?_
    intro d _ _
    split
    · exact keeps_applyToAssistant (below .role (by decide))
    · exact keeps_leave

/-! ## The scenarios of a skill -/

theorem keeps_commitClear {held : List Row} {know : Database → Prop} (assistantIds : Finset Uuid) :
    Keeps rules held know (.commit fun d => d.clearChats assistantIds) := by
  refine .commit fun d right _ => ?_
  refine ⟨⟨right.usable, right.role, fun id mem => ?_, fun id mem skillId active => ?_⟩,
    ⟨rfl, rfl, rfl, rfl, assistantId_clearChats _ _, fun _ => rfl, fun _ => rfl⟩,
    fun row _ => ⟨fun _ _ => ⟨rfl, subset_rfl⟩, fun _ _ => ⟨rfl, rfl, rfl⟩, fun _ _ => rfl⟩⟩
  · rw [assistantId_clearChats]
    exact right.owner id mem
  · rw [assistantId_clearChats]
    exact right.engaged id mem skillId (activeSkillId_clearChats active).2

theorem keeps_mutateScenario (skillId : Uuid) (scenarioId : Option Uuid)
    (accepted : Database → Bool) :
    Keeps rules [] (fun _ => True) (mutateScenario skillId scenarioId accepted) := by
  have unknown : ∀ held, Stable rules held fun _ => True := fun held => stable_const rules held True
  refine keeps_lockSkillRow fun d₀ held isHeld below => ?_
  refine .read (fun _ _ => True) (fun _ _ _ => ⟨unknown held, trivial⟩) fun _ _ _ => ?_
  split
  · exact keeps_leave
  refine .read (fun _ _ => True) (fun _ _ _ => ⟨unknown held, trivial⟩) fun _ _ _ => ?_
  refine keeps_lockRows (below .role (by decide)) (unknown held) fun _ held₁ _ _ _ below₁ _ => ?_
  refine .read (fun _ _ => True) (fun _ _ _ => ⟨unknown held₁, trivial⟩) fun _ _ _ => ?_
  refine .read (fun _ _ => True) (fun _ _ _ => ⟨unknown held₁, trivial⟩) fun _ _ _ => ?_
  refine keeps_lockRows (below₁ .assistant (by decide)) (unknown held₁)
    fun _ held₂ _ _ _ below₂ _ => ?_
  refine (keeps_lockRows (below₂ .chat (by decide)) (unknown held₂)
    fun _ held₃ _ _ _ below₃ _ => ?_).of_imp fun _ _ _ => trivial
  refine (keeps_lockRows (below₃ .roleSkill (by decide)) (unknown held₃)
    fun _ held₄ _ _ _ below₄ _ => ?_).of_imp fun _ _ _ => trivial
  have writes : ∀ more ids, Keeps rules more (fun _ => True) (writeScenario ids accepted) := by
    intro more ids
    refine .read (fun _ _ => True) (fun _ _ _ => ⟨unknown more, trivial⟩) fun _ _ _ => ?_
    split
    · exact keeps_commitClear _
    · exact keeps_leave
  dsimp only
  split
  · exact (writes held₄ _).of_imp fun _ _ _ => trivial
  · refine (keeps_lockRows (below₄ .scenario (by decide)) (unknown held₄)
      fun _ held₅ _ _ _ _ _ => ?_).of_imp fun _ _ _ => trivial
    exact (writes held₅ _).of_imp fun _ _ _ => trivial

/-! ## Updates of their own -/

section
variable {know : Database → Prop}

/-- In no order; what is known stands without a row. -/
theorem keeps_updateRows {held : List Row} {table : Table} {scan : List Key}
    {keys : Database → Finset Key} {write : Database → Database}
    (stable : Stable rules held know)
    (writes : ∀ more, Keeps rules more know (.commit write)) :
    Keeps rules.unordered held know (updateRows table scan keys write) :=
  .read (fun _ => know) (fun _ _ known => ⟨stable, known⟩) fun _ _ _ =>
    keeps_lockAll (fun _ _ _ _ => trivial) (writes _).unordered

theorem keeps_markAssignedAssistantsDirty (skillId : Uuid) (scan : List Key) :
    Keeps rules.unordered [] (fun _ => True) (markAssignedAssistantsDirty skillId scan) :=
  keeps_updateRows (stable_const rules [] True) fun _ => keeps_leave

theorem keeps_resetAssignedChatState (skillId : Uuid) (reset : ChatReset) (scan : List Key) :
    Keeps rules.unordered [] (fun _ => True) (resetAssignedChatState skillId reset scan) := by
  have unknown := stable_const rules [] True
  refine .read (fun _ _ => True) (fun _ _ _ => ⟨unknown, trivial⟩) fun d _ _ => ?_
  have updates (ids : Finset Uuid) {write : Database → Database}
      (writes : ∀ more, Keeps rules more (fun _ => True) (.commit write)) :
      Keeps rules.unordered [] (fun _ => True)
        (if ids.Nonempty then updateRows .chat scan (fun d => d.chatKeys ids) write
         else leave) := by
    split
    · exact keeps_updateRows unknown writes
    · exact keeps_leave.unordered
  dsimp only
  split
  · exact keeps_leave.unordered
  cases reset with
  | retrievalOnly => exact updates _ fun _ => keeps_leave
  | withActiveSkills =>
    exact .read (fun _ _ => True) (fun _ _ _ => ⟨unknown, trivial⟩) fun _ _ _ =>
      updates _ fun _ => keeps_commitClear _
  | withoutActiveSkills =>
    exact .read (fun _ _ => True) (fun _ _ _ => ⟨unknown, trivial⟩) fun _ _ _ =>
      updates _ fun _ => keeps_commitClear _

end

/-! ## Every interleaving -/

theorem keeps_body {request : Request} (transaction : request.isTransaction) :
    Keeps rules [] (fun _ => True) request.body := by
  cases request with
  | updateSkill skillId status now => exact keeps_updateSkill skillId status now
  | archiveSkill skillId now => exact keeps_archive skillId _ now
  | updateRole roleId status => exact keeps_updateRole roleId status
  | archiveRole roleId => exact keeps_archiveRole roleId
  | replaceSkills roleId requestedSkillIds => exact keeps_replaceSkills roleId requestedSkillIds
  | applyRoleSelection input => exact keeps_applyRoleSelection input
  | applyWithCandidate input => exact keeps_applyWithCandidate input
  | mutateScenario skillId scenarioId accepted =>
    exact keeps_mutateScenario skillId scenarioId accepted
  | markAssignedAssistantsDirty => cases transaction
  | resetAssignedChatState => cases transaction

theorem keeps_unordered (request : Request) :
    Keeps rules.unordered [] (fun _ => True) request.body := by
  by_cases transaction : request.isTransaction
  · exact (keeps_body transaction).unordered
  · cases request with
    | markAssignedAssistantsDirty skillId scan =>
      exact keeps_markAssignedAssistantsDirty skillId scan
    | resetAssignedChatState skillId reset scan =>
      exact keeps_resetAssignedChatState skillId reset scan
    | _ => exact absurd rfl transaction

def step (s : System Database Row) (e : Event) : System Database Row := s.step e.toSystem

/-- However the transactions interleave, with the updates of their own among them, the tables stay
right, and no two hold one row. -/
theorem right_run {d : Database} (right : Right d) (es : List Event) :
    Runs.EveryState step (fun s => Right s.data ∧ s.Exclusive) ⟨d, []⟩ es := by
  have inv : rules.unordered.inv d := right
  refine Runs.everyState_mono (fun _ sound => ⟨sound.inv, sound.exclusive⟩)
    (sound_run Event.toSystem inv fun e _ => ?_)
  cases e with
  | start request => exact keeps_unordered request
  | step i => trivial

/-! A role with one skill, an assistant that has it, and a chat that uses the skill. -/
namespace Sample

def database : Database where
  skillIds := {1}
  skill _ := ⟨.active, none⟩
  roleIds := {2}
  role _ := ⟨"writer", .active⟩
  assistantIds := {3}
  assistant _ := ⟨10, 11, 2⟩
  chatIds := {4}
  chat _ := ⟨3, .web, "thread", some 1⟩
  links := {(2, 1)}

theorem database_right : Right database where
  usable _ archived := by cases archived
  role _ _ := ⟨Finset.mem_singleton_self 2, rfl⟩
  owner _ _ := Finset.mem_singleton_self 3
  engaged _ _ _ active := Option.some.inj active ▸ Finset.mem_singleton_self (2, 1)

/-- The skill is archived while it is taken off the role; the archive waits for its row. -/
def race (others : List Event) : List Event :=
  [.start (.archiveSkill 1 0), .start (.replaceSkills 2 ∅)] ++ others ++
    (List.replicate 3 1 ++ List.replicate 2 0 ++ List.replicate 13 1 ++
      List.replicate 7 0).map .step

def reset : List Event :=
  .start (.resetAssignedChatState 1 .withActiveSkills []) :: List.replicate 5 (.step 2)

end Sample

/-- All three commit. -/
theorem race_right :
    Runs.EveryState step (fun s => Right s.data ∧ s.Exclusive) ⟨Sample.database, []⟩
        (Sample.race Sample.reset) ∧
      (Runs.run step ⟨Sample.database, []⟩ (Sample.race Sample.reset)).data.links = ∅ ∧
      ((Runs.run step ⟨Sample.database, []⟩ (Sample.race Sample.reset)).data.skill 1).status =
        .archived :=
  ⟨right_run Sample.database_right (Sample.race Sample.reset), by decide +kernel,
    by decide +kernel⟩

/-- The transactions never wait for each other in a circle: while one runs, one of those that run
does not wait. The updates of their own are left out, which lock rows in any order. -/
theorem no_deadlock {d : Database} (right : Right d) {es : List Event}
    (transactions : ∀ e ∈ es, e.isTransaction) :
    Runs.EveryState step (fun s => (∃ i, s.Running i) → ∃ i, s.Ready i) ⟨d, []⟩ es := by
  have inv : rules.inv d := right
  refine Runs.everyState_mono (fun _ sound running => exists_ready (fun _ _ asks => asks) sound
    running) (sound_run Event.toSystem inv fun e mem => ?_)
  cases e with
  | start request => exact keeps_body (transactions _ mem)
  | step i => trivial

theorem race_ready : Runs.EveryState step (fun s => (∃ i, s.Running i) → ∃ i, s.Ready i)
    ⟨Sample.database, []⟩ (Sample.race []) := no_deadlock Sample.database_right (by decide)

namespace Sample

/-- Two updates come upon the chats of an assistant in opposite orders. -/
def crossing : List Event :=
  [.start (.resetAssignedChatState 1 .withActiveSkills [toLex (3, 4), toLex (3, 5)]),
    .start (.resetAssignedChatState 1 .withActiveSkills [toLex (3, 5), toLex (3, 4)])] ++
    (List.replicate 4 0 ++ List.replicate 4 1).map .step

end Sample

/-- With the updates of their own among the transactions, two can wait for each other. -/
theorem crossing_blocked :
    let s := Runs.run step ⟨{ Sample.database with chatIds := {4, 5} }, []⟩ Sample.crossing
    s.transactions.length = 2 ∧ ∀ i < 2, s.Running i ∧ ¬ s.Ready i := by
  refine ⟨by decide +kernel, fun i bound => blocked_iff.mp ?_⟩
  have both : ∀ i < 2, (Runs.run step ⟨{ Sample.database with chatIds := {4, 5} }, []⟩
      Sample.crossing).blocked i := by decide +kernel
  exact both i bound

end Persai.AssistantRoles
