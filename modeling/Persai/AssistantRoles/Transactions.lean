import Persai.AssistantRoles.Locks

/-!
# The transactions that change roles and skills

Each transaction of the services, statement by statement, from what it reads to what it locks and
writes. Where a service throws, or finds that it has to retry, its transaction ends without a
write; the retry is a transaction of its own. What `update` and `archive` of a skill go on with
after their transaction are updates in no transaction but their own, each a request here.
-/

namespace Persai.AssistantRoles

open RowLocks

def defaultAssistantRoleId : Uuid := 0x40008000000000000147

def defaultAssistantRoleKey : String := "persai_default"

def isDefault (roleId : Uuid) (role : Role) : Bool :=
  roleId == defaultAssistantRoleId || role.key == defaultAssistantRoleKey

def Skill.isActive (skill : Skill) : Bool :=
  skill.status == .active && skill.archivedAt.isNone

/-- Nothing is written. -/
def leave : Body := .commit id

/-! ## Skills -/

/-- The active roles that are linked to the skill are locked with it, and there may be none. -/
def lockSkillArchiveScope (skillId : Uuid) (next : Body) : Body :=
  lockSkillRow skillId <| .read fun d =>
    let candidateRoles := d.activeLinkedRoles skillId
    lockAssistantRoleRows candidateRoles <| .read fun d =>
      let activeLinkedRoles := candidateRoles ∩ d.activeLinkedRoles skillId
      lockRoleSkillRowsForSkill skillId <|
        if activeLinkedRoles.Nonempty then leave else next

/-- The skill that is locked gets its next status; `now` is the time that `archivedAt` takes. -/
def writeSkill (skillId : Uuid) (status : Option Status) (now : ℕ) : Body :=
  .read fun d =>
    match d.findSkill skillId with
    | none => leave
    | some existing =>
      let nextStatus := status.getD existing.status
      .commit fun d => d.updateSkill skillId
        ⟨nextStatus, if nextStatus = .archived then some (existing.archivedAt.getD now) else none⟩

/-- `update` of a skill. -/
def updateSkill (skillId : Uuid) (status : Option Status) (now : ℕ) : Body :=
  if status = some .archived then lockSkillArchiveScope skillId (writeSkill skillId status now)
  else lockSkillRow skillId (writeSkill skillId status now)

/-- `archive` of a skill. -/
def archiveSkill (skillId : Uuid) (now : ℕ) : Body :=
  lockSkillArchiveScope skillId (writeSkill skillId (some .archived) now)

/-- The assistants are marked; nothing that is modelled here changes. -/
def markAssignedAssistantsDirty (skillId : Uuid) (scan : List Key) : Body :=
  updateRows .assistant scan (fun d => (d.assistantsWithSkill skillId).image idKey) id

/-- The updates that `resetAssignedChatState` may come to: of the chats of all assistants of the
skill, or of those whose role has an active skill and then of the others. -/
inductive ChatReset
  | retrievalOnly
  | withActiveSkills
  | withoutActiveSkills
  deriving DecidableEq, Repr

/-- The role of the assistant has an active skill. -/
def Database.hasActiveSkills (d : Database) (assistantId : Uuid) : Bool :=
  decide (∃ skillId ∈ d.skillIds, ((d.assistant assistantId).roleId, skillId) ∈ d.links ∧
    (d.skill skillId).isActive = true)

/-- `resetAssignedChatState`, up to one of its updates; what it reads before holds no row. -/
def resetAssignedChatState (skillId : Uuid) (reset : ChatReset) (scan : List Key) : Body :=
  .read fun d =>
    let assistantIds := d.assistantsWithSkill skillId
    if assistantIds = ∅ then leave
    else
      let updateChats (ids : Finset Uuid) (write : Database → Database) : Body :=
        if ids.Nonempty then updateRows .chat scan (fun d => d.chatKeys ids) write else leave
      match reset with
      | .retrievalOnly => updateChats assistantIds id
      | .withActiveSkills => .read fun d =>
        let ids := assistantIds.filter fun id => d.hasActiveSkills id
        updateChats ids fun d => d.clearChats ids
      | .withoutActiveSkills => .read fun d =>
        let ids := assistantIds.filter fun id => ¬ d.hasActiveSkills id
        updateChats ids fun d => d.clearChats ids

/-! ## Roles -/

/-- Ends where an assistant still has the role. -/
def assertRoleNotInUse (roleId : Uuid) (next : Body) : Body :=
  .read fun d =>
    let assistantIds := d.assistantsOf roleId
    lockAssistantRows assistantIds <| .read fun d =>
      let stillLinked := assistantIds ∩ d.assistantsOf roleId
      if stillLinked.Nonempty then leave else next

def lockRoleAssistants (roleId : Uuid) (next : Finset Uuid → Body) : Body :=
  .read fun d => lockAssistantRows (d.assistantsOf roleId) <| next (d.assistantsOf roleId)

def assertSkillsActive (skillIds : Finset Uuid) (next : Body) : Body :=
  .read fun d =>
    if ∀ skillId ∈ skillIds, (d.findSkill skillId).any Skill.isActive = true then next else leave

/-- The role that is locked gets its next status, with its assistants locked. -/
def writeRole (roleId : Uuid) (nextStatus : Status) : Body :=
  lockRoleAssistants roleId fun _ => .commit fun d => d.updateRole roleId nextStatus

/-- What `update` does once the role is locked: activated with other skills than those that are
locked, it has to be tried again. -/
def updateLockedRole (roleId : Uuid) (status : Option Status) (advisoryActivating : Bool)
    (snapshotSkillIds : Finset Uuid) : Body :=
  .read fun d =>
    match d.findRole roleId with
    | none => leave
    | some locked =>
      let nextStatus := status.getD locked.status
      let activating := locked.status ≠ .active ∧ nextStatus = .active
      let lockedSkillIds := d.skillIdsOf roleId
      if activating ∧ (¬ advisoryActivating ∨ lockedSkillIds ≠ snapshotSkillIds) then leave
      else if isDefault roleId locked ∧ nextStatus ≠ .active then leave
      else if nextStatus ≠ .active ∧ locked.status = .active then
        assertRoleNotInUse roleId (writeRole roleId nextStatus)
      else if activating then assertSkillsActive lockedSkillIds (writeRole roleId nextStatus)
      else writeRole roleId nextStatus

/-- `update` of a role, from its snapshot before anything is locked. -/
def updateRole (roleId : Uuid) (status : Option Status) : Body :=
  .read fun d =>
    match d.findRole roleId with
    | none => leave
    | some snapshot =>
      let snapshotSkillIds := d.skillIdsOf roleId
      if snapshot.status ≠ .active ∧ status.getD snapshot.status = .active then
        lockSkillRows snapshotSkillIds <| lockAssistantRoleRows {roleId} <|
          updateLockedRole roleId status true snapshotSkillIds
      else
        lockAssistantRoleRows {roleId} <| updateLockedRole roleId status false snapshotSkillIds

/-- `archive` of a role. Its assistants, which are looked up once more, are written without having
been locked in this order. -/
def archiveRole (roleId : Uuid) : Body :=
  lockAssistantRoleRows {roleId} <| .read fun d =>
    match d.findRole roleId with
    | none => leave
    | some existing =>
      if isDefault roleId existing then leave
      else assertRoleNotInUse roleId <|
        if existing.status = .archived then leave else writeRole roleId .archived

/-- What `replaceSkills` does once the role and its assistants are locked: where other skills are
linked than those that were read first, it has to be tried again. -/
def replaceLockedSkills (roleId : Uuid) (requestedSkillIds currentSkillIds : Finset Uuid)
    (immutable : Bool) (assistantIds : Finset Uuid) : Body :=
  .read fun d =>
    let lockedCurrentSkillIds := d.skillIdsOf roleId
    if ¬ lockedCurrentSkillIds ⊆ currentSkillIds ∪ requestedSkillIds ∨
        lockedCurrentSkillIds ≠ currentSkillIds then leave
    else if immutable ∧ lockedCurrentSkillIds = ∅ then leave
    else assertSkillsActive requestedSkillIds <|
      .commit fun d => (d.replaceLinks roleId requestedSkillIds).clearChats assistantIds

/-- `replaceSkills`; the skills that the role has and those that it shall have are locked. -/
def replaceSkills (roleId : Uuid) (requestedSkillIds : Finset Uuid) : Body :=
  .read fun d =>
    let currentSkillIds := d.skillIdsOf roleId
    lockSkillRows (currentSkillIds ∪ requestedSkillIds) <|
      lockAssistantRoleRows {roleId} <| .read fun d =>
        match d.findRole roleId with
        | none => leave
        | some role =>
          if isDefault roleId role ∧ requestedSkillIds.Nonempty then leave
          else lockRoleAssistants roleId fun assistantIds =>
            lockAssistantChatRows assistantIds <| lockRoleSkillRowsForRole roleId <|
              replaceLockedSkills roleId requestedSkillIds currentSkillIds (isDefault roleId role)
                assistantIds

/-! ## The role of an assistant -/

structure RoleSelection where
  assistantId : Uuid
  workspaceId : Uuid
  ownerUserId : Uuid
  expectedCurrentRoleId : Uuid
  expectedRoleKey : String
  roleKey : String
  deriving DecidableEq, Repr

def Database.roleIdsByKey (d : Database) (key : String) : Finset Uuid :=
  d.roleIds.filter fun roleId => (d.role roleId).key = key

/-- The assistant, where it is the owner's. -/
def RoleSelection.owned (input : RoleSelection) (d : Database) : Finset Uuid :=
  d.assistantIds.filter fun id =>
    id = input.assistantId ∧ (d.assistant id).userId = input.ownerUserId ∧
      (d.assistant id).workspaceId = input.workspaceId

/-- The assistant is locked after its role and the one it shall have. -/
def selectRole (input : RoleSelection) (targetRoleId : Uuid) : Body :=
  lockRows .assistant (fun d => (input.owned d).image idKey) <| .read fun d =>
    if input.assistantId ∉ input.owned d then leave
    else
      let roleId := (d.assistant input.assistantId).roleId
      if roleId ≠ input.expectedCurrentRoleId then leave
      else if roleId ∉ d.roleIds then leave
      else if roleId = targetRoleId then leave
      else lockAssistantChatRows {input.assistantId} <| .commit fun d =>
        (d.updateAssistant input.assistantId targetRoleId).clearChats {input.assistantId}

/-- `applyRoleSelectionInTransaction`. -/
def applyRoleSelection (input : RoleSelection) : Body :=
  .read fun d =>
    if input.expectedCurrentRoleId ∉ d.roleIdsByKey input.expectedRoleKey then leave
    else .read fun d =>
      let targets := (d.roleIdsByKey input.roleKey).filter fun id => (d.role id).status = .active
      match (targets.sort (· ≤ ·)).head? with
      | none => leave
      | some targetRoleId =>
        lockAssistantRoleRows {input.expectedCurrentRoleId, targetRoleId} <| .read fun d =>
          if (d.findRole targetRoleId).any fun role => role.status = .active then
            selectRole input targetRoleId
          else leave

/-! ## The skill of a chat -/

/-- `engage` names the skill; `release` comes with the one that was found before. -/
inductive SkillAction
  | engage (skillId : Uuid)
  | release (candidateSkillId : Option Uuid)
  deriving DecidableEq, Repr

def SkillAction.targetSkillId : SkillAction → Option Uuid
  | .engage skillId => some skillId
  | .release candidateSkillId => candidateSkillId

def SkillAction.activeSkillId : SkillAction → Option Uuid
  | .engage skillId => some skillId
  | .release _ => none

structure SkillStateInput where
  assistantId : Uuid
  expectedRoleId : Uuid
  surface : Surface
  surfaceThreadKey : String
  action : SkillAction
  deriving DecidableEq, Repr

/-- The chat of the surface and thread. -/
def SkillStateInput.chats (input : SkillStateInput) (d : Database) : Finset Uuid :=
  d.chatIds.filter fun id =>
    (d.chat id).assistantId = input.assistantId ∧ (d.chat id).surface = input.surface ∧
      (d.chat id).surfaceThreadKey = input.surfaceThreadKey

/-- The skill is still linked to the role. -/
def writeSkillState (input : SkillStateInput) (chatId : Uuid) : Body :=
  match input.action.targetSkillId with
  | none => .commit fun d => d.updateChat chatId input.action.activeSkillId
  | some skillId => lockRoleSkillRow input.expectedRoleId skillId <| .read fun d =>
      if (input.expectedRoleId, skillId) ∈ d.links then
        .commit fun d => d.updateChat chatId input.action.activeSkillId
      else leave

/-- The chat, once the assistant is locked; what is released is still what was found before. -/
def applyToChat (input : SkillStateInput) : Body :=
  lockRows .chat (fun d => (input.chats d).image fun id => toLex (input.assistantId, id)) <|
    .read fun d =>
      match ((input.chats d).sort (· ≤ ·)).head? with
      | none => leave
      | some chatId =>
        match input.action with
        | .engage _ => writeSkillState input chatId
        | .release candidateSkillId =>
          if (d.chat chatId).activeSkillId = candidateSkillId then writeSkillState input chatId
          else leave

/-- The role is still active, and still that of the assistant. -/
def applyToAssistant (input : SkillStateInput) : Body :=
  lockAssistantRoleRows {input.expectedRoleId} <| .read fun d =>
    if (d.findRole input.expectedRoleId).any fun role => role.status = .active then
      lockAssistantRows {input.assistantId} <| .read fun d =>
        if input.assistantId ∉ d.assistantIds then leave
        else if (d.assistant input.assistantId).roleId ≠ input.expectedRoleId then leave
        else applyToChat input
    else leave

/-- `applyWithCandidate`. -/
def applyWithCandidate (input : SkillStateInput) : Body :=
  match input.action.targetSkillId with
  | none => applyToAssistant input
  | some skillId => lockSkillRow skillId <| .read fun d =>
      if (d.findSkill skillId).any Skill.isActive then applyToAssistant input else leave

/-! ## The scenarios of a skill -/

/-- `lockMutationScope`, with the assistants whose state a change of the scenarios makes stale. -/
def lockMutationScope (skillId : Uuid) (next : Finset Uuid → Body) : Body :=
  lockSkillRow skillId <| .read fun d =>
    if skillId ∉ d.skillIds then leave
    else .read fun d =>
      let candidateRoles := d.activeLinkedRoles skillId
      lockAssistantRoleRows candidateRoles <| .read fun d =>
        let activeLinkedRoles := candidateRoles ∩ d.activeLinkedRoles skillId
        .read fun d =>
          let assistantIds := d.assistantIds.filter fun id =>
            (d.assistant id).roleId ∈ activeLinkedRoles
          lockAssistantRows assistantIds <| lockAssistantChatRows assistantIds <|
            lockRoleSkillRowsForSkill skillId <| next assistantIds

def writeScenario (assistantIds : Finset Uuid) (accepted : Database → Bool) : Body :=
  .read fun d => if accepted d then .commit fun d => d.clearChats assistantIds else leave

/-- A scenario is created, or one is locked and changed; `accepted` stands for the checks on the
scenarios and scripts themselves. -/
def mutateScenario (skillId : Uuid) (scenarioId : Option Uuid) (accepted : Database → Bool) :
    Body :=
  lockMutationScope skillId fun assistantIds =>
    match scenarioId with
    | none => writeScenario assistantIds accepted
    | some scenarioId => lockScenarioRow scenarioId (writeScenario assistantIds accepted)

/-! ## All of them -/

inductive Request
  | updateSkill (skillId : Uuid) (status : Option Status) (now : ℕ)
  | archiveSkill (skillId : Uuid) (now : ℕ)
  | updateRole (roleId : Uuid) (status : Option Status)
  | archiveRole (roleId : Uuid)
  | replaceSkills (roleId : Uuid) (requestedSkillIds : Finset Uuid)
  | applyRoleSelection (input : RoleSelection)
  | applyWithCandidate (input : SkillStateInput)
  | mutateScenario (skillId : Uuid) (scenarioId : Option Uuid) (accepted : Database → Bool)
  | markAssignedAssistantsDirty (skillId : Uuid) (scan : List Key)
  | resetAssignedChatState (skillId : Uuid) (reset : ChatReset) (scan : List Key)

/-- One of the transactions that share the order of their locks. -/
def Request.isTransaction : Request → Bool
  | .markAssignedAssistantsDirty _ _ => false
  | .resetAssignedChatState _ _ _ => false
  | _ => true

def Request.body : Request → Body
  | .updateSkill skillId status now => AssistantRoles.updateSkill skillId status now
  | .archiveSkill skillId now => AssistantRoles.archiveSkill skillId now
  | .updateRole roleId status => AssistantRoles.updateRole roleId status
  | .archiveRole roleId => AssistantRoles.archiveRole roleId
  | .replaceSkills roleId requestedSkillIds =>
    AssistantRoles.replaceSkills roleId requestedSkillIds
  | .applyRoleSelection input => AssistantRoles.applyRoleSelection input
  | .applyWithCandidate input => AssistantRoles.applyWithCandidate input
  | .mutateScenario skillId scenarioId accepted =>
    AssistantRoles.mutateScenario skillId scenarioId accepted
  | .markAssignedAssistantsDirty skillId scan =>
    AssistantRoles.markAssignedAssistantsDirty skillId scan
  | .resetAssignedChatState skillId reset scan =>
    AssistantRoles.resetAssignedChatState skillId reset scan

/-- A request comes in, or the `i`-th transaction runs its next statement. -/
inductive Event
  | start (request : Request)
  | step (i : ℕ)

def Event.isTransaction : Event → Bool
  | .start request => request.isTransaction
  | .step _ => true

def Event.toSystem : Event → RowLocks.Event Database Row
  | .start request => .start request.body
  | .step i => .step i

end Persai.AssistantRoles
