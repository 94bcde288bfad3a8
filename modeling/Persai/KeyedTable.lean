import Mathlib.Data.List.Nodup

/-!
# Tables with a unique key

Rows in the order they were created, each under a key of its own. Reads are a
lookup by key or a scan for the first matching row; writes change the rows that
match a condition and never a key, or create a row under a key not in use.
-/

structure KeyedTable (κ α : Type) where
  rows : List (κ × α)
  unique : (rows.map Prod.fst).Nodup

namespace KeyedTable

variable {κ α : Type} [DecidableEq κ]

instance : EmptyCollection (KeyedTable κ α) := ⟨⟨[], List.nodup_nil⟩⟩

/-- The row under the key `k`. -/
def get? (t : KeyedTable κ α) (k : κ) : Option α := t.rows.lookup k

/-- The first row that satisfies `p`. -/
def find? (t : KeyedTable κ α) (p : κ → α → Bool) : Option (κ × α) :=
  t.rows.find? fun r => p r.1 r.2

/-- All rows that satisfy `p`. -/
def select (t : KeyedTable κ α) (p : κ → α → Bool) : List (κ × α) :=
  t.rows.filter fun r => p r.1 r.2

/-- Rewrite every row that satisfies `p`. -/
def updateWhere (t : KeyedTable κ α) (p : κ → α → Bool) (f : α → α) : KeyedTable κ α where
  rows := t.rows.map fun r => (r.1, if p r.1 r.2 then f r.2 else r.2)
  unique := by simpa [List.map_map, Function.comp_def] using t.unique

/-- Rewrite the row under the key `k`. -/
def update (t : KeyedTable κ α) (k : κ) (f : α → α) : KeyedTable κ α :=
  t.updateWhere (fun i _ => i == k) f

/-- Create a row; `none` when the key is in use. -/
def create (t : KeyedTable κ α) (k : κ) (a : α) : Option (KeyedTable κ α) :=
  if h : k ∈ t.rows.map Prod.fst then none
  else some ⟨t.rows ++ [(k, a)], by
    rw [List.map_append]
    exact List.nodup_append.mpr ⟨t.unique, by simp, by simpa using fun i b hi e => h (by
      subst e; exact List.mem_map.mpr ⟨(i, b), hi, rfl⟩)⟩⟩

/-- Create the row or replace it. -/
def put (t : KeyedTable κ α) (k : κ) (a : α) : KeyedTable κ α :=
  (t.create k a).getD (t.update k fun _ => a)

/-- Delete every row that satisfies `p`. -/
def deleteWhere (t : KeyedTable κ α) (p : κ → α → Bool) : KeyedTable κ α where
  rows := t.rows.filter fun r => !p r.1 r.2
  unique := t.unique.sublist (List.filter_sublist.map Prod.fst)

/-- How many rows satisfy `p`. -/
def count (t : KeyedTable κ α) (p : κ → α → Bool) : Nat := (t.select p).length

@[simp] theorem get?_empty (k : κ) : (∅ : KeyedTable κ α).get? k = none := rfl

theorem lookup_eq_some_iff {rows : List (κ × α)} (nodup : (rows.map Prod.fst).Nodup) {k : κ}
    {a : α} : rows.lookup k = some a ↔ (k, a) ∈ rows := by
  induction rows with
  | nil => simp
  | cons r rows ih =>
    obtain ⟨i, b⟩ := r
    simp only [List.map_cons, List.nodup_cons] at nodup
    by_cases same : k = i
    · subst same
      have absent : (k, a) ∉ rows := fun h => nodup.1 (List.mem_map.mpr ⟨_, h, rfl⟩)
      simp [absent, eq_comm]
    · simp [List.lookup_cons, beq_false_of_ne same, ih nodup.2, same]

/-- A row is found under its own key. -/
theorem get?_eq_some_iff {t : KeyedTable κ α} {k : κ} {a : α} :
    t.get? k = some a ↔ (k, a) ∈ t.rows := lookup_eq_some_iff t.unique

theorem get?_eq_none_iff {t : KeyedTable κ α} {k : κ} :
    t.get? k = none ↔ k ∉ t.rows.map Prod.fst := by
  simp only [get?, List.lookup_eq_none_iff, List.mem_map, not_exists, not_and]
  constructor
  · intro h r hr e; simpa [e] using h r hr
  · intro h r hr; simpa using fun e => h r hr e.symm

theorem get?_of_find? {t : KeyedTable κ α} {p : κ → α → Bool} {k : κ} {a : α}
    (h : t.find? p = some (k, a)) : t.get? k = some a ∧ p k a = true :=
  ⟨get?_eq_some_iff.mpr (List.mem_of_find?_eq_some h), by simpa using List.find?_some h⟩

theorem find?_eq_none_iff {t : KeyedTable κ α} {p : κ → α → Bool} :
    t.find? p = none ↔ ∀ k a, t.get? k = some a → p k a = false := by
  simp only [find?, List.find?_eq_none, get?_eq_some_iff, Bool.not_eq_true, Prod.forall]

theorem find?_isSome_iff {t : KeyedTable κ α} {p : κ → α → Bool} :
    (t.find? p).isSome ↔ ∃ k a, t.get? k = some a ∧ p k a = true := by
  constructor
  · intro found
    obtain ⟨⟨k, a⟩, found⟩ := Option.isSome_iff_exists.mp found
    exact ⟨k, a, get?_of_find? found⟩
  · rintro ⟨k, a, row, holds⟩
    cases found : t.find? p with
    | some r => rfl
    | none => rw [find?_eq_none_iff.mp found k a row] at holds; cases holds

theorem mem_select_iff {t : KeyedTable κ α} {p : κ → α → Bool} {k : κ} {a : α} :
    (k, a) ∈ t.select p ↔ t.get? k = some a ∧ p k a = true := by
  simp [select, List.mem_filter, get?_eq_some_iff]

@[simp] theorem get?_updateWhere (t : KeyedTable κ α) (p : κ → α → Bool) (f : α → α) (k : κ) :
    (t.updateWhere p f).get? k = (t.get? k).map fun a => if p k a then f a else a := by
  obtain ⟨rows, unique⟩ := t
  simp only [get?, updateWhere]
  clear unique
  induction rows with
  | nil => rfl
  | cons r rows ih =>
    obtain ⟨i, b⟩ := r
    by_cases same : k = i
    · subst same; simp
    · simp only [List.map_cons, List.lookup_cons, beq_false_of_ne same, ih]

theorem get?_update (t : KeyedTable κ α) (i k : κ) (f : α → α) :
    (t.update i f).get? k = if k = i then (t.get? k).map f else t.get? k := by
  rw [update, get?_updateWhere]
  by_cases same : k = i <;> simp [same]

@[simp] theorem get?_update_self (t : KeyedTable κ α) (k : κ) (f : α → α) :
    (t.update k f).get? k = (t.get? k).map f := by simp [get?_update]

theorem get?_update_of_ne (t : KeyedTable κ α) {i k : κ} (f : α → α) (h : k ≠ i) :
    (t.update i f).get? k = t.get? k := by simp [get?_update, h]

theorem create_eq_some_iff {t t' : KeyedTable κ α} {k : κ} {a : α} :
    t.create k a = some t' ↔ t.get? k = none ∧ t'.rows = t.rows ++ [(k, a)] := by
  rw [get?_eq_none_iff]
  unfold create
  split
  · rename_i used; simp [used]
  · rename_i free
    constructor
    · intro h; cases h; exact ⟨free, rfl⟩
    · rintro ⟨-, h⟩
      obtain ⟨rows, unique⟩ := t'
      subst h
      rfl

theorem create_eq_none_iff {t : KeyedTable κ α} {k : κ} {a : α} :
    t.create k a = none ↔ (t.get? k).isSome := by
  rw [← Option.not_isNone, Bool.not_eq_true', ← Bool.not_eq_true, Option.isNone_iff_eq_none,
    get?_eq_none_iff, not_not]
  unfold create
  split <;> simp_all

theorem get?_create {t t' : KeyedTable κ α} {i : κ} {a : α} (h : t.create i a = some t') (k : κ) :
    t'.get? k = if k = i then some a else t.get? k := by
  obtain ⟨free, rows⟩ := create_eq_some_iff.mp h
  rw [get?_eq_none_iff] at free
  apply Option.ext
  intro b
  rw [get?_eq_some_iff, rows, List.mem_append, List.mem_singleton, Prod.mk.injEq]
  by_cases same : k = i
  · subst same
    have absent : (k, b) ∉ t.rows := fun m => free (List.mem_map.mpr ⟨_, m, rfl⟩)
    simp [absent, eq_comm]
  · simp [same, get?_eq_some_iff]

theorem get?_deleteWhere (t : KeyedTable κ α) (p : κ → α → Bool) (k : κ) :
    (t.deleteWhere p).get? k = (t.get? k).filter fun a => !p k a := by
  apply Option.ext
  intro a
  rw [get?_eq_some_iff, Option.filter_eq_some_iff, get?_eq_some_iff]
  exact List.mem_filter

omit [DecidableEq κ] in
@[simp] theorem length_updateWhere (t : KeyedTable κ α) (p : κ → α → Bool) (f : α → α) :
    (t.updateWhere p f).rows.length = t.rows.length := List.length_map ..

/-- Create a row, or rewrite the one that is there. -/
def upsert (t : KeyedTable κ α) (k : κ) (new : α) (f : α → α) : KeyedTable κ α :=
  (t.create k new).getD (t.update k f)

theorem get?_upsert (t : KeyedTable κ α) (k i : κ) (new : α) (f : α → α) :
    (t.upsert k new f).get? i = if i = k then some ((t.get? k).elim new f) else t.get? i := by
  unfold upsert
  cases created : t.create k new with
  | some t' =>
    obtain ⟨free, -⟩ := create_eq_some_iff.mp created
    rw [Option.getD_some, get?_create created, free]
    rfl
  | none =>
    obtain ⟨a, used⟩ := Option.isSome_iff_exists.mp (create_eq_none_iff.mp created)
    rw [Option.getD_none, get?_update]
    by_cases same : i = k
    · subst same; simp [used]
    · simp [same]

theorem get?_put (t : KeyedTable κ α) (k i : κ) (a : α) :
    (t.put k a).get? i = if i = k then some a else t.get? i := by
  have put_eq : t.put k a = t.upsert k a fun _ => a := rfl
  rw [put_eq, get?_upsert]
  cases t.get? k <;> rfl

/-! ## The rows in the order of their creation -/

theorem rows_put {t : KeyedTable κ α} {k : κ} (free : ∀ row ∈ t.rows, row.1 ≠ k) (a : α) :
    (t.put k a).rows = t.rows ++ [(k, a)] := by
  have absent : k ∉ t.rows.map Prod.fst := by
    rintro used
    obtain ⟨row, member, key⟩ := List.mem_map.mp used
    exact free row member key
  unfold put create
  rw [dif_neg absent]
  rfl

theorem rows_update_last {t : KeyedTable κ α} {older : List (κ × α)} {k : κ} {a : α}
    (rows : t.rows = older ++ [(k, a)]) (f : α → α) :
    (t.update k f).rows = older ++ [(k, f a)] := by
  have unique := t.unique
  rw [rows, List.map_append, List.nodup_append] at unique
  have others : older.map (fun row => (row.1, if row.1 == k then f row.2 else row.2)) = older := by
    conv_rhs => rw [← List.map_id older]
    refine List.map_congr_left fun row member => ?_
    have other := unique.2.2 row.1 (List.mem_map.mpr ⟨row, member, rfl⟩) k (by simp)
    rw [if_neg (by simpa using other)]
    rfl
  simp only [update, updateWhere, rows, List.map_append, others, List.map_cons, List.map_nil,
    beq_self_eq_true, if_true]

theorem keys_upsert (t : KeyedTable κ α) (k : κ) (new : α) (f : α → α) :
    (t.upsert k new f).rows.map Prod.fst =
      if k ∈ t.rows.map Prod.fst then t.rows.map Prod.fst else t.rows.map Prod.fst ++ [k] := by
  unfold upsert create
  split
  · simp [update, updateWhere, Function.comp_def]
  · simp

theorem rows_upsert_of_free {t : KeyedTable κ α} {k : κ} (free : t.get? k = none) (new : α)
    (f : α → α) : (t.upsert k new f).rows = t.rows ++ [(k, new)] := by
  rw [get?_eq_none_iff] at free
  simp only [upsert, create, dif_neg free, Option.getD_some]

/-- Creating a row that is there, and not rewriting it. -/
theorem upsert_id_of_used {t : KeyedTable κ α} {k : κ} (used : (t.get? k).isSome) {new : α} :
    t.upsert k new id = t := by
  rw [upsert, create_eq_none_iff.mpr used, Option.getD_none, update, updateWhere]
  simp

theorem rows_eq_keys (t : KeyedTable κ α) :
    t.rows = (t.rows.map Prod.fst).filterMap fun k => (t.get? k).map (k, ·) := by
  rw [List.filterMap_map]
  have found : ∀ row ∈ t.rows,
      ((fun k => (t.get? k).map (k, ·)) ∘ Prod.fst) row = some row := by
    intro row member
    simp [get?_eq_some_iff.mpr member]
  rw [List.filterMap_congr found, List.filterMap_some]

end KeyedTable
