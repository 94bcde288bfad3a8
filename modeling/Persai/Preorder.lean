import Mathlib.Data.List.Nodup
import Persai.Forest

/-!
# Walks that visit a node before its children

`walk` visits the nodes of a stack in turn, each only once and right before its children.

* `walk_keeps`: what each visit keeps, the walk keeps;
* `walk_forest`: over a part of a forest that is closed under parents, a walk from its roots
  visits each node once and after its parent, and nothing is left for a second walk.
-/

namespace Preorder

section Walk

variable {κ : Type} [DecidableEq κ] {nodes : List κ} {children : κ → List κ}

def walk (nodes : List κ) (children : κ → List κ) : (stack visited : List κ) → List κ
  | [], visited => visited
  | x :: stack, visited =>
    if x ∈ nodes ∧ x ∉ visited then
      walk nodes children (children x ++ stack) (visited ++ [x])
    else walk nodes children stack visited
termination_by stack visited => ((nodes.filter (· ∉ visited)).length, stack.length)
decreasing_by
  next fresh =>
    refine Prod.Lex.left _ _ ?_
    have sublist : (nodes.filter (· ∉ visited ++ [x])).Sublist (nodes.filter (· ∉ visited)) := by
      refine List.monotone_filter_right nodes fun y apart => ?_
      simp only [List.mem_append, decide_eq_true_eq, not_or] at apart ⊢
      exact apart.1
    refine lt_of_le_of_ne sublist.length_le fun same => ?_
    have here : x ∈ nodes.filter (· ∉ visited) := by simpa using fresh
    rw [← sublist.eq_of_length same] at here
    simp at here
  next => exact Prod.Lex.right _ (by simp)

theorem walk_keeps {P : List κ → List κ → Prop}
    (skip : ∀ x stack visited, x ∉ nodes ∨ x ∈ visited → P (x :: stack) visited → P stack visited)
    (visit : ∀ x stack visited, x ∈ nodes → x ∉ visited → P (x :: stack) visited →
      P (children x ++ stack) (visited ++ [x])) {stack visited : List κ}
    (start : P stack visited) : P [] (walk nodes children stack visited) := by
  fun_induction walk nodes children stack visited with
  | case1 => exact start
  | case2 x stack visited fresh ih => exact ih (visit x stack visited fresh.1 fresh.2 start)
  | case3 x stack visited old ih =>
    refine ih (skip x stack visited ?_ start)
    simpa only [not_and_or, not_not] using old

theorem walk_append (stack later visited : List κ) :
    walk nodes children (stack ++ later) visited =
      walk nodes children later (walk nodes children stack visited) := by
  fun_induction walk nodes children stack visited with
  | case1 => rfl
  | case2 x stack visited fresh ih =>
    rw [List.cons_append, walk, if_pos fresh, ← ih, List.append_assoc]
  | case3 x stack visited old ih => rw [List.cons_append, walk, if_neg old, ih]

theorem walk_visited {stack visited : List κ} (old : ∀ x ∈ stack, x ∈ visited) :
    walk nodes children stack visited = visited := by
  induction stack with
  | nil => rw [walk]
  | cons x stack ih =>
    rw [walk, if_neg fun fresh => fresh.2 (old x List.mem_cons_self)]
    exact ih fun y member => old y (List.mem_cons_of_mem x member)

end Walk

variable {κ : Type} {nodes : List κ} {children : κ → List κ} {up : κ → Option κ}

/-- Each node comes after its parent. -/
def ParentsFirst (up : κ → Option κ) (visited : List κ) : Prop :=
  ∀ earlier x later, visited = earlier ++ x :: later → ∀ p, up x = some p → p ∈ earlier

theorem parentsFirst_nil : ParentsFirst up [] := by
  intro earlier x later split
  cases earlier <;> cases split

theorem ParentsFirst.concat {visited : List κ} {x : κ} (first : ParentsFirst up visited)
    (ready : ∀ p, up x = some p → p ∈ visited) : ParentsFirst up (visited ++ [x]) := by
  intro earlier y later split p link
  obtain rfl | ⟨rest, z, rfl⟩ := List.eq_nil_or_concat later
  · obtain ⟨rfl, same⟩ := List.append_inj' split rfl
    obtain rfl : x = y := by simpa using same
    exact ready p link
  · rw [List.concat_eq_append, ← List.cons_append, ← List.append_assoc] at split
    exact first earlier y rest (List.append_inj' split rfl).1 p link

/-- A part of a forest that is closed under parents, with the children of each node. -/
structure Part (nodes : List κ) (children : κ → List κ) (up : κ → Option κ) (part : κ → Prop) :
    Prop where
  forest : Forest.IsForest up
  known : ∀ x, part x → x ∈ nodes
  closed : ∀ x p, part x → up x = some p → part p
  child : ∀ x ∈ nodes, ∀ y, y ∈ children x ↔ part y ∧ up y = some x

/-- How far a walk over a part has come. -/
structure Underway (up : κ → Option κ) (part : κ → Prop) (stack visited : List κ) : Prop where
  nodup : visited.Nodup
  within : ∀ x ∈ visited, part x
  pending : ∀ x ∈ stack, part x
  first : ParentsFirst up visited
  ready : ∀ x ∈ stack, ∀ p, up x = some p → p ∈ visited
  reached : ∀ x, part x → (∀ p, up x = some p → p ∈ visited) → x ∈ visited ∨ x ∈ stack

variable {part : κ → Prop}

theorem Underway.skip {x : κ} {stack visited : List κ} (known : ∀ x, part x → x ∈ nodes)
    (old : x ∉ nodes ∨ x ∈ visited) (h : Underway up part (x :: stack) visited) :
    Underway up part stack visited where
  nodup := h.nodup
  within := h.within
  pending y member := h.pending y (List.mem_cons_of_mem x member)
  first := h.first
  ready y member := h.ready y (List.mem_cons_of_mem x member)
  reached y inside above := by
    obtain seen | (_ | ⟨_, member⟩) := h.reached y inside above
    · exact .inl seen
    · exact .inl (old.resolve_left fun unknown => unknown (known _ inside))
    · exact .inr member

theorem Underway.visit {x : κ} {stack visited : List κ} (h : Part nodes children up part)
    (known : x ∈ nodes) (fresh : x ∉ visited) (underway : Underway up part (x :: stack) visited) :
    Underway up part (children x ++ stack) (visited ++ [x]) where
  nodup := by
    refine underway.nodup.append (List.nodup_singleton x) ?_
    simpa using fresh
  within y member := by
    obtain old | rfl := by simpa using member
    · exact underway.within y old
    · exact underway.pending y List.mem_cons_self
  pending y member := by
    obtain child | later := List.mem_append.mp member
    · exact ((h.child x known y).mp child).1
    · exact underway.pending y (List.mem_cons_of_mem x later)
  first := underway.first.concat (underway.ready x List.mem_cons_self)
  ready y member p link := by
    obtain child | later := List.mem_append.mp member
    · obtain rfl : x = p := Option.some.inj (((h.child x known y).mp child).2.symm.trans link)
      simp
    · exact List.mem_append_left _ (underway.ready y (List.mem_cons_of_mem x later) p link)
  reached y inside above := by
    by_cases under : up y = some x
    · exact .inr (List.mem_append_left _ ((h.child x known y).mpr ⟨inside, under⟩))
    · have before (p : κ) (link : up y = some p) : p ∈ visited := by
        obtain old | rfl := by simpa using above p link
        · exact old
        · exact absurd link under
      obtain seen | (_ | ⟨_, later⟩) := underway.reached y inside before
      · exact .inl (List.mem_append_left _ seen)
      · exact .inl (by simp)
      · exact .inr (List.mem_append_right _ later)

/-- A walk from all roots of the part, and one from other nodes of it after that. -/
theorem walk_forest [DecidableEq κ] (h : Part nodes children up part) {roots others : List κ}
    (root : ∀ x, x ∈ roots ↔ part x ∧ up x = none) (inside : ∀ x ∈ others, part x) :
    let visited := walk nodes children (roots ++ others) []
    visited.Nodup ∧ (∀ x, x ∈ visited ↔ part x) ∧ ParentsFirst up visited := by
  have start : Underway up part roots [] :=
    { nodup := List.nodup_nil
      within := by simp
      pending := fun x member => ((root x).mp member).1
      first := parentsFirst_nil
      ready := fun x member p link => by
        rw [((root x).mp member).2] at link
        cases link
      reached := fun x inside above => by
        refine .inr ((root x).mpr ⟨inside, Option.eq_none_iff_forall_ne_some.mpr ?_⟩)
        intro p link
        cases above p link }
  have done : Underway up part [] (walk nodes children roots []) := walk_keeps
    (fun _ _ _ old => Underway.skip h.known old)
    (fun _ _ _ known fresh => Underway.visit h known fresh) start
  -- from the roots down every node of the part is reached
  have all (x : κ) : part x → x ∈ walk nodes children roots [] := by
    induction x using h.forest.induction with
    | _ x ih =>
      intro inside
      have above (p : κ) (link : up x = some p) := ih p link (h.closed x p inside link)
      simpa using done.reached x inside above
  dsimp only
  rw [walk_append, walk_visited fun x member => all x (inside x member)]
  exact ⟨done.nodup, fun x => ⟨done.within x, all x⟩, done.first⟩

end Preorder
