import Mathlib.Data.List.Sort
import Mathlib.Order.Lex
import Persai.CodeUnits
import Persai.KeyedTable

/-!
# Fields in the order of their keys

`sort` compares texts by their code units. Lists of fields with distinct keys are equal when they
are sorted exactly when they have the same value under each key (`sortByKey_eq_iff`).
-/

namespace Persai.SortedFields

open CodeUnits (Text)

/-- The order of `sort`: by code units. -/
def keyLe (a b : Text) : Prop := a.map UInt16.toNat ≤ b.map UInt16.toNat

instance : DecidableRel keyLe := fun a b =>
  inferInstanceAs (Decidable (a.map UInt16.toNat ≤ b.map UInt16.toNat))

def sortByKey {α : Type} (fields : List (Text × α)) : List (Text × α) :=
  fields.insertionSort fun a b => keyLe a.1 b.1

theorem sortByKey_map {α β : Type} (f : α → β) (fields : List (Text × α)) :
    (sortByKey fields).map (Prod.map id f) = sortByKey (fields.map (Prod.map id f)) :=
  List.map_insertionSort _ _ _ _ fun _ _ _ _ => Iff.rfl

theorem keyLe_antisymm {a b : Text} (le : keyLe a b) (ge : keyLe b a) : a = b :=
  List.map_injective_iff.mpr (fun _ _ => UInt16.toNat_inj.mp) (le_antisymm le ge)

theorem sorted_sortByKey {α : Type} (fields : List (Text × α)) :
    (sortByKey fields).Pairwise fun a b => keyLe a.1 b.1 := by
  have total : Std.Total fun a b : Text × α => keyLe a.1 b.1 :=
    ⟨fun a b => le_total (a.1.map UInt16.toNat) (b.1.map UInt16.toNat)⟩
  have trans : IsTrans (Text × α) fun a b => keyLe a.1 b.1 :=
    ⟨fun a b c le le' => le_trans (show a.1.map UInt16.toNat ≤ b.1.map UInt16.toNat from le) le'⟩
  exact List.pairwise_insertionSort _ _

theorem perm_sortByKey {α : Type} (fields : List (Text × α)) : (sortByKey fields).Perm fields :=
  List.perm_insertionSort _ _

theorem lookup_eq_some_iff {α : Type} {fields : List (Text × α)} {key : Text} {value : α}
    (keys : (fields.map Prod.fst).Nodup) :
    fields.lookup key = some value ↔ (key, value) ∈ fields := by
  have same : (List.instBEq : BEq Text) = instBEqOfDecidableEq := lawful_beq_subsingleton _ _
  rw [same]
  exact KeyedTable.lookup_eq_some_iff keys

/-- Lists of fields are the same when they are sorted, when they have the same fields. -/
theorem sortByKey_eq_iff {α : Type} {fields fields' : List (Text × α)}
    (keys : (fields.map Prod.fst).Nodup) (keys' : (fields'.map Prod.fst).Nodup) :
    sortByKey fields = sortByKey fields' ↔
      ∀ key, fields.lookup key = fields'.lookup key := by
  constructor
  · intro same key
    have perm : fields.Perm fields' :=
      (perm_sortByKey fields).symm.trans (same ▸ perm_sortByKey fields')
    refine Option.ext fun value => ?_
    rw [lookup_eq_some_iff keys, lookup_eq_some_iff keys', perm.mem_iff]
  · intro same
    have perm : fields.Perm fields' := by
      refine (List.perm_ext_iff_of_nodup keys.of_map keys'.of_map).mpr fun ⟨key, value⟩ => ?_
      rw [← lookup_eq_some_iff keys, ← lookup_eq_some_iff keys', same]
    refine List.Perm.eq_of_pairwise ?_ (sorted_sortByKey fields) (sorted_sortByKey fields')
      (((perm_sortByKey fields).trans perm).trans (perm_sortByKey fields').symm)
    rintro ⟨key, value⟩ ⟨key', value'⟩ member member' le ge
    obtain rfl : key = key' := keyLe_antisymm le ge
    have here := (lookup_eq_some_iff keys).mpr
      ((perm_sortByKey fields).mem_iff.mp member)
    have there := (lookup_eq_some_iff keys').mpr
      ((perm_sortByKey fields').mem_iff.mp member')
    rw [same, there, Option.some.injEq] at here
    rw [here]

theorem sortByKey_sortByKey {α : Type} (fields : List (Text × α)) :
    sortByKey (sortByKey fields) = sortByKey fields :=
  List.Pairwise.insertionSort_eq (sorted_sortByKey fields)

end Persai.SortedFields
