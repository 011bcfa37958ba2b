/-
# The fields of an object by name

An object may repeat a name, and the last field of a name counts.  There are two ways to ask for
the fields that count:

| | gives |
| --- | --- |
| `get?` | the value of one name |
| `entries` | all names with their values, in the order of names |

They agree (`mem_entries_iff`), and `entries` has every name once (`inOrder_entries`).  Both
follow from what one more field at the end of an object changes.
-/

import DependencyUse.Json.Value
import Mathlib.Data.List.Induction
import Mathlib.Data.String.Basic

namespace DependencyUse
namespace Json
namespace Value

/-- Fields in strictly increasing order of their names. -/
def InOrder (fields : List (String × Value)) : Prop :=
  fields.Pairwise fun f g => f.1 < g.1

/-- **What one more field changes:** the value of its name. -/
theorem mem_placeField {field f : String × Value} {fields : List (String × Value)}
    (h : InOrder fields) :
    f ∈ placeField field fields ↔ f = field ∨ f ∈ fields ∧ f.1 ≠ field.1 := by
  induction fields with
  | nil => simp [placeField]
  | cons g fields ih =>
    obtain ⟨hg, hrest⟩ := List.pairwise_cons.1 h
    rw [placeField]
    split
    · rename_i hlt
      -- the name is smaller than all others
      have hne : f ∈ g :: fields → f.1 ≠ field.1 := by
        rintro hf heq
        rcases List.mem_cons.1 hf with rfl | hf
        · exact lt_irrefl _ (heq ▸ hlt)
        · exact lt_irrefl _ (heq ▸ hlt.trans (hg f hf))
      rw [List.mem_cons]
      exact or_congr_right ⟨fun hf => ⟨hf, hne hf⟩, And.left⟩
    · rename_i hnot
      split
      · rename_i hgt
        rw [List.mem_cons, ih hrest, List.mem_cons]
        constructor
        · rintro (rfl | rfl | ⟨hf, hne⟩)
          · exact .inr ⟨.inl rfl, hgt.ne⟩
          · exact .inl rfl
          · exact .inr ⟨.inr hf, hne⟩
        · rintro (rfl | ⟨rfl | hf, hne⟩)
          · exact .inr (.inl rfl)
          · exact .inl rfl
          · exact .inr (.inr ⟨hf, hne⟩)
      · rename_i hnot'
        have heq : g.1 = field.1 := le_antisymm (not_lt.1 hnot) (not_lt.1 hnot')
        rw [List.mem_cons, List.mem_cons]
        constructor
        · rintro (rfl | hf)
          · exact .inl rfl
          · exact .inr ⟨.inr hf, fun hsame => lt_irrefl _ (heq.trans hsame.symm ▸ hg f hf)⟩
        · rintro (rfl | ⟨rfl | hf, hne⟩)
          · exact .inl rfl
          · exact absurd heq hne
          · exact .inr hf

theorem InOrder.placeField {fields : List (String × Value)} (h : InOrder fields)
    (field : String × Value) : InOrder (placeField field fields) := by
  induction fields with
  | nil => exact List.pairwise_singleton ..
  | cons g fields ih =>
    obtain ⟨hg, hrest⟩ := List.pairwise_cons.1 h
    rw [Value.placeField]
    split
    · rename_i hlt
      refine List.pairwise_cons.2 ⟨fun f hf => ?_, h⟩
      rcases List.mem_cons.1 hf with rfl | hf
      · exact hlt
      · exact hlt.trans (hg f hf)
    · rename_i hnot
      split
      · rename_i hgt
        refine List.pairwise_cons.2 ⟨fun f hf => ?_, ih hrest⟩
        rcases (mem_placeField hrest).1 hf with rfl | ⟨hf, -⟩
        · exact hgt
        · exact hg f hf
      · rename_i hnot'
        have heq : g.1 = field.1 := le_antisymm (not_lt.1 hnot) (not_lt.1 hnot')
        exact List.pairwise_cons.2 ⟨fun f hf => heq ▸ hg f hf, hrest⟩

theorem entries_concat (fields : List (String × Value)) (field : String × Value) :
    entries (.object (fields ++ [field])) = placeField field (entries (.object fields)) :=
  List.foldl_concat ..

theorem get?_concat (fields : List (String × Value)) (field : String × Value) (name : String) :
    get? (.object (fields ++ [field])) name
      = if field.1 = name then some field.2 else get? (.object fields) name := by
  rw [get?, get?, List.reverse_append, List.reverse_singleton, List.singleton_append]
  by_cases h : field.1 = name
  · rw [if_pos h, List.find?_cons_of_pos (by simpa using h)]
    rfl
  · rw [if_neg h, List.find?_cons_of_neg (by simpa using h)]

/-- **Every name is once among the entries**, in the order of names. -/
theorem inOrder_entries (v : Value) : InOrder v.entries := by
  cases v with
  | object fields =>
    induction fields using List.reverseRecOn with
    | nil => exact List.Pairwise.nil
    | append_singleton fields field ih =>
      rw [entries_concat]
      exact ih.placeField field
  | _ => exact List.Pairwise.nil

/-- **The entries are the fields that count.** -/
theorem mem_entries_iff {v w : Value} {name : String} :
    (name, w) ∈ v.entries ↔ v.get? name = some w := by
  cases v with
  | object fields =>
    induction fields using List.reverseRecOn with
    | nil => simp [entries, get?]
    | append_singleton fields field ih =>
      rw [entries_concat, mem_placeField (inOrder_entries _), get?_concat, ih]
      by_cases h : field.1 = name
      · subst h
        simp [Prod.ext_iff, eq_comm]
      · have hne : (name, w) ≠ field := fun heq => h (heq ▸ rfl)
        simp [h, hne, Ne.symm h]
  | _ => simp [entries, get?]

end Value
end Json
end DependencyUse
