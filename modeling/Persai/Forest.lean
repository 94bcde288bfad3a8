import Mathlib.Logic.Relation
import Mathlib.Order.WellFounded

/-!
# Forests given by their parent links

`up x` is the node over `x`, if it has one.

* `Below`, `Within`: the nodes under a node, without and with the node itself;
* `IsForest`: every chain of parents ends;
* `isForest_update`: hanging a node under one that is not within it, or making it a root, keeps
  a forest; `isForest_of_le`: so does taking links away;
* `within_iff_of_some`, `within_iff_of_none`: one step up;
* `within_iff_below_cut`, `below_iff_below_cut`: what is under a node, or under some nodes, in
  terms of the links that are left when the next ones are cut.
-/

namespace Forest

variable {α : Type} {up up' : α → Option α} {x y c m : α}

/-- `p` is the parent of `x`. -/
def Over (up : α → Option α) (p x : α) : Prop := up x = some p

/-- `x` is somewhere under `y`. -/
def Below (up : α → Option α) (x y : α) : Prop := Relation.TransGen (Over up) y x

/-- `x` is `y` or somewhere under it. -/
def Within (up : α → Option α) (x y : α) : Prop := Relation.ReflTransGen (Over up) y x

/-- Every chain of parents ends at a root. -/
def IsForest (up : α → Option α) : Prop := WellFounded (Over up)

theorem Within.refl (x : α) : Within up x x := Relation.ReflTransGen.refl

theorem Within.step (linked : up x = some c) (h : Within up c y) : Within up x y :=
  Relation.ReflTransGen.tail h linked

theorem within_iff_of_some (linked : up x = some c) :
    Within up x y ↔ x = y ∨ Within up c y := by
  constructor
  · intro h
    rcases Relation.ReflTransGen.cases_tail h with same | ⟨p, rest, last⟩
    · exact .inl same
    · rw [Over, linked, Option.some.injEq] at last
      exact .inr (last ▸ rest)
  · rintro (rfl | rest)
    · exact .refl x
    · exact .step linked rest

theorem within_iff_of_none (root : up x = none) : Within up x y ↔ x = y := by
  constructor
  · intro h
    rcases Relation.ReflTransGen.cases_tail h with same | ⟨p, -, last⟩
    · exact same
    · rw [Over, root] at last
      cases last
  · rintro rfl
    exact .refl x

theorem below_iff : Below up x y ↔ ∃ p, up x = some p ∧ Within up p y := by
  rw [Below, Relation.TransGen.tail'_iff]
  constructor
  · rintro ⟨p, rest, last⟩; exact ⟨p, last, rest⟩
  · rintro ⟨p, last, rest⟩; exact ⟨p, rest, last⟩

theorem Below.within (h : Below up x y) : Within up x y := h.to_reflTransGen

theorem Below.mono (fewer : ∀ x p, up' x = some p → up x = some p) (h : Below up' x y) :
    Below up x y := by
  induction h with
  | single link => exact Relation.TransGen.single (fewer _ _ link)
  | tail _ link ih => exact ih.tail (fewer _ _ link)

theorem Below.single (linked : up x = some c) : Below up x c := Relation.TransGen.single linked

/-- With the link over `y` cut, the nodes within `y` are `y` and those still under it. -/
theorem within_iff_below_cut (cut : ∀ x p, up' x = some p ↔ up x = some p ∧ x ≠ y) :
    Within up x y ↔ x = y ∨ Below up' x y := by
  constructor
  · intro within
    induction within with
    | refl => exact .inl rfl
    | @tail p x _ link ih =>
      by_cases top : x = y
      · exact .inl top
      · have kept : up' x = some p := (cut x p).mpr ⟨link, top⟩
        rcases ih with rfl | below
        · exact .inr (.single kept)
        · exact .inr (below.tail kept)
  · rintro (rfl | below)
    · exact .refl _
    · exact (below.mono fun x p kept => ((cut x p).mp kept).1).within

/-- With the links over the children of `tops` cut, the nodes under `tops` are those children and
the nodes still under them. -/
theorem below_iff_below_cut {tops children : α → Prop}
    (child : ∀ x, children x ↔ ∃ p, tops p ∧ up x = some p)
    (cut : ∀ x p, up' x = some p ↔ up x = some p ∧ ¬ children x) :
    (∃ d, tops d ∧ Below up x d) ↔ children x ∨ ∃ d, children d ∧ Below up' x d := by
  constructor
  · rintro ⟨d, top, below⟩
    induction below with
    | @single x link => exact .inl ((child x).mpr ⟨d, top, link⟩)
    | @tail p x _ link ih =>
      by_cases first : children x
      · exact .inl first
      · have kept : up' x = some p := (cut x p).mpr ⟨link, first⟩
        rcases ih with cutAt | ⟨o, cutAt, below⟩
        · exact .inr ⟨p, cutAt, .single kept⟩
        · exact .inr ⟨o, cutAt, below.tail kept⟩
  · rintro (first | ⟨o, first, below⟩)
    · obtain ⟨d, top, link⟩ := (child x).mp first
      exact ⟨d, top, .single link⟩
    · obtain ⟨d, top, link⟩ := (child o).mp first
      have whole : Below up x o := below.mono fun x p kept => ((cut x p).mp kept).1
      exact ⟨d, top, whole.head link⟩

theorem IsForest.not_below_self (forest : IsForest up) (x : α) : ¬ Below up x x := by
  intro cycle
  exact (WellFounded.transGen forest).asymmetric x x cycle cycle

/-- No node of a forest is its own parent or is under itself. -/
theorem IsForest.not_within_of_parent (forest : IsForest up) (linked : up x = some c) :
    ¬ Within up c x :=
  fun h => forest.not_below_self x (below_iff.mpr ⟨c, linked, h⟩)

/-- A chain of parents that does not pass `m` is not touched by a new link over `m`. -/
theorem acc_update_of_away [DecidableEq α] {p : Option α} (acc : Acc (Over up) x)
    (away : ¬ Within up x m) : Acc (Over (Function.update up m p)) x := by
  induction acc with
  | intro x _ ih =>
    have other : x ≠ m := fun same => away (same ▸ .refl x)
    refine Acc.intro x fun c linked => ?_
    rw [Over, Function.update_of_ne other] at linked
    exact ih c linked fun h => away (.step linked h)

theorem isForest_update [DecidableEq α] {p : Option α} (forest : IsForest up)
    (away : ∀ c, p = some c → ¬ Within up c m) : IsForest (Function.update up m p) := by
  have moved : Acc (Over (Function.update up m p)) m := by
    refine Acc.intro m fun c linked => ?_
    rw [Over, Function.update_self] at linked
    exact acc_update_of_away (forest.apply c) (away c linked)
  refine ⟨fun x => ?_⟩
  induction forest.apply x with
  | intro x _ ih =>
    by_cases same : x = m
    · exact same ▸ moved
    · refine Acc.intro x fun c linked => ?_
      rw [Over, Function.update_of_ne same] at linked
      exact ih c linked

theorem isForest_of_le (fewer : ∀ x p, up' x = some p → up x = some p) (forest : IsForest up) :
    IsForest up' :=
  Subrelation.wf (fun {p x} => fewer x p) forest

theorem isForest_none : IsForest (fun _ : α => none) :=
  ⟨fun x => Acc.intro x fun _ linked => by cases linked⟩

end Forest
