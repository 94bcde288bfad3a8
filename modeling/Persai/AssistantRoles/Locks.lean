import Mathlib.Data.Finset.Sort
import Mathlib.Data.Prod.Lex
import Persai.RowLocks

/-!
# The rows that the services of roles and skills lock

The tables of roles, skills, assistants and their chats, and the statements that lock their rows:
each locks the rows that it finds in the order of their keys, and the tables come in the order
that all the services share. An update in no transaction but its own locks rows too, in any order.
-/

namespace Persai.AssistantRoles

open RowLocks

/-- The number that the bytes of an id spell, by which the database orders them. -/
abbrev Uuid := ℕ

/-! ## The tables -/

inductive Status
  | draft
  | active
  | archived
  deriving DecidableEq, Repr

structure Skill where
  status : Status
  archivedAt : Option ℕ
  deriving DecidableEq, Repr

structure Role where
  key : String
  status : Status
  deriving DecidableEq, Repr

structure Assistant where
  userId : Uuid
  workspaceId : Uuid
  roleId : Uuid
  deriving DecidableEq, Repr

inductive Surface
  | web
  | telegram
  deriving DecidableEq, Repr

/-- `activeSkillId` is that of the decision state, when its status is active. -/
structure Chat where
  assistantId : Uuid
  surface : Surface
  surfaceThreadKey : String
  activeSkillId : Option Uuid
  deriving DecidableEq, Repr

/-- The ids that are in each table, and the rows they name; `links` is the table of the skills of
the roles. -/
structure Database where
  skillIds : Finset Uuid
  skill : Uuid → Skill
  roleIds : Finset Uuid
  role : Uuid → Role
  assistantIds : Finset Uuid
  assistant : Uuid → Assistant
  chatIds : Finset Uuid
  chat : Uuid → Chat
  links : Finset (Uuid × Uuid)

namespace Database

variable (d : Database)

def findSkill (skillId : Uuid) : Option Skill :=
  if skillId ∈ d.skillIds then some (d.skill skillId) else none

def findRole (roleId : Uuid) : Option Role :=
  if roleId ∈ d.roleIds then some (d.role roleId) else none

def skillIdsOf (roleId : Uuid) : Finset Uuid :=
  (d.links.filter fun link => link.1 = roleId).image Prod.snd

/-- The active roles that are linked to a skill. -/
def activeLinkedRoles (skillId : Uuid) : Finset Uuid :=
  d.roleIds.filter fun roleId => (d.role roleId).status = .active ∧ (roleId, skillId) ∈ d.links

def assistantsOf (roleId : Uuid) : Finset Uuid :=
  d.assistantIds.filter fun assistantId => (d.assistant assistantId).roleId = roleId

/-- The assistants of the roles that are linked to a skill. -/
def assistantsWithSkill (skillId : Uuid) : Finset Uuid :=
  d.assistantIds.filter fun id => ((d.assistant id).roleId, skillId) ∈ d.links

def updateSkill (skillId : Uuid) (row : Skill) : Database :=
  { d with skill := fun id => if id = skillId then row else d.skill id }

def updateRole (roleId : Uuid) (status : Status) : Database :=
  { d with role := fun id => if id = roleId then { d.role id with status } else d.role id }

def updateAssistant (assistantId roleId : Uuid) : Database :=
  { d with assistant := fun id =>
      if id = assistantId then { d.assistant id with roleId } else d.assistant id }

def updateChat (chatId : Uuid) (activeSkillId : Option Uuid) : Database :=
  { d with chat := fun id => if id = chatId then { d.chat id with activeSkillId } else d.chat id }

/-- `updateMany`: the chats of the assistants forget their skill. -/
def clearChats (assistantIds : Finset Uuid) : Database :=
  { d with chat := fun id =>
      if (d.chat id).assistantId ∈ assistantIds then { d.chat id with activeSkillId := none }
      else d.chat id }

/-- `deleteMany`, and `createMany` of what is asked for. -/
def replaceLinks (roleId : Uuid) (skillIds : Finset Uuid) : Database :=
  { d with links := (d.links.filter fun link => link.1 ≠ roleId) ∪
      skillIds.image fun skillId => (roleId, skillId) }

end Database

/-! ## The rows -/

inductive Table
  | skill
  | role
  | assistant
  | chat
  | roleSkill
  | scenario
  deriving DecidableEq, Repr

/-- `ASSISTANT_SKILL_MUTATION_LOCK_ORDER`; the scenarios, which it does not name, come last. -/
def lockOrder : List Table := [.skill, .role, .assistant, .chat, .roleSkill]

def Table.rank (table : Table) : ℕ := lockOrder.idxOf table

/-- What a statement orders its rows by. -/
abbrev Key := Uuid ×ₗ Uuid

structure Row where
  table : Table
  key : Key
  deriving DecidableEq

def Row.position (row : Row) : ℕ ×ₗ Key := toLex (row.table.rank, row.key)

theorem rank_injective {table other : Table} (same : table.rank = other.rank) : table = other := by
  cases table <;> cases other <;> first | rfl | exact absurd same (by decide)

theorem position_injective : Function.Injective Row.position := by
  intro row other same
  have pair := Prod.mk.inj (toLex.injective same)
  obtain ⟨table, key⟩ := row
  obtain ⟨table', key'⟩ := other
  obtain rfl := rank_injective pair.1
  obtain rfl : key = key' := pair.2
  rfl

instance : LinearOrder Row := LinearOrder.lift' Row.position position_injective

theorem row_lt_iff {row other : Row} : row < other ↔
    row.table.rank < other.table.rank ∨
      row.table.rank = other.table.rank ∧ row.key < other.key := Prod.Lex.lt_iff

/-- The key of a row that is named by its id. -/
def idKey (id : Uuid) : Key := toLex (id, 0)

def idRow (table : Table) (id : Uuid) : Row := ⟨table, idKey id⟩

/-- The chats of the assistants. -/
def Database.chatKeys (d : Database) (assistantIds : Finset Uuid) : Finset Key :=
  (d.chatIds.filter fun chatId => (d.chat chatId).assistantId ∈ assistantIds).image fun chatId =>
    toLex ((d.chat chatId).assistantId, chatId)

/-- The rows of a table in the order of their keys. -/
def rowsOf (table : Table) (keys : Finset Key) : List Row :=
  (keys.sort (· ≤ ·)).map fun key => ⟨table, key⟩

theorem mem_rowsOf {table : Table} {keys : Finset Key} {row : Row} :
    row ∈ rowsOf table keys ↔ row.table = table ∧ row.key ∈ keys := by
  obtain ⟨table', key⟩ := row
  simp only [rowsOf, List.mem_map, Finset.mem_sort, Row.mk.injEq]
  constructor
  · rintro ⟨_, mem, rfl, rfl⟩
    exact ⟨rfl, mem⟩
  · rintro ⟨rfl, mem⟩
    exact ⟨key, mem, rfl, rfl⟩

theorem rowsOf_ascending (table : Table) (keys : Finset Key) :
    (rowsOf table keys).Pairwise (· < ·) := by
  rw [rowsOf, List.pairwise_map]
  refine keys.sortedLT_sort.pairwise.imp ?_
  intro key other lt
  exact row_lt_iff.mpr (.inr ⟨rfl, lt⟩)

/-! ## The statements that lock -/

abbrev Body := Steps Database Row

/-- `SELECT … ORDER BY … FOR UPDATE`. -/
def lockRows (table : Table) (keys : Database → Finset Key) (next : Body) : Body :=
  .read fun d => lockAll (rowsOf table (keys d)) next

def lockSkillRows (skillIds : Finset Uuid) : Body → Body :=
  lockRows .skill fun d => (skillIds ∩ d.skillIds).image idKey

def lockSkillRow (skillId : Uuid) : Body → Body := lockSkillRows {skillId}

def lockAssistantRoleRows (roleIds : Finset Uuid) : Body → Body :=
  lockRows .role fun d => (roleIds ∩ d.roleIds).image idKey

def lockAssistantRows (assistantIds : Finset Uuid) : Body → Body :=
  lockRows .assistant fun d => (assistantIds ∩ d.assistantIds).image idKey

def lockAssistantChatRows (assistantIds : Finset Uuid) : Body → Body :=
  lockRows .chat fun d => d.chatKeys assistantIds

def lockRoleSkillRowsForSkill (skillId : Uuid) : Body → Body :=
  lockRows .roleSkill fun d => (d.links.filter fun link => link.2 = skillId).image toLex

def lockRoleSkillRowsForRole (roleId : Uuid) : Body → Body :=
  lockRows .roleSkill fun d => (d.links.filter fun link => link.1 = roleId).image toLex

def lockRoleSkillRow (roleId skillId : Uuid) : Body → Body :=
  lockRows .roleSkill fun d => (d.links.filter fun link => link = (roleId, skillId)).image toLex

def lockScenarioRow (scenarioId : Uuid) : Body → Body :=
  lockRows .scenario fun _ => {idKey scenarioId}

/-- `updateMany` in no transaction but its own: it locks the rows that it finds as it comes upon
them, those that `scan` names first, and writes. -/
def updateRows (table : Table) (scan : List Key) (keys : Database → Finset Key)
    (write : Database → Database) : Body :=
  .read fun d =>
    let found := keys d
    let inOrder := scan.filter (· ∈ found) ++ (found \ scan.toFinset).sort (· ≤ ·)
    lockAll (inOrder.map fun key => ⟨table, key⟩) (.commit write)

end Persai.AssistantRoles
