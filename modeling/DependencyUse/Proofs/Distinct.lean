/-
# First occurrences

Of things that are the same, `distinctBy` keeps the first one.  Things are the same if they
have the same key, and what is kept is said by keys, without the function (`IsFirsts`):

| the kept things | |
| --- | --- |
| come in the order of all things | `sublist` |
| have different keys | `distinct` |
| are the first ones with their keys, one for every key that there is | `first` |

Keeping the first ones goes together with picking out things by what same things have in
common (`filter_distinctBy`), and with what things are made of (`distinctBy_map`).  The key of
a warning is its code and its place.
-/

import DependencyUse.Proofs.Order
import DependencyUse.Warning
import Mathlib.Data.List.Find
import Mathlib.Data.List.Nodup

namespace DependencyUse

section Firsts

variable {α β κ ι : Type} [DecidableEq κ] [DecidableEq ι] {same : α → α → Bool} {key : α → κ}

/-- The kept things are the first ones with their keys, in their order. -/
structure IsFirsts (key : α → κ) (all kept : List α) : Prop where
  sublist : kept.Sublist all
  distinct : (kept.map key).Nodup
  first : ∀ x ∈ all, ∃ y ∈ kept, all.find? (fun z => key z = key x) = some y

namespace IsFirsts

/-- Kept things with the same key are one. -/
theorem eq_of_key_eq {all kept : List α} (h : IsFirsts key all kept) {a b : α} (ha : a ∈ kept)
    (hb : b ∈ kept) (hab : key a = key b) : a = b :=
  List.inj_on_of_nodup_map h.distinct ha hb hab

/-- Every key is kept. -/
theorem exists_key_eq {all kept : List α} (h : IsFirsts key all kept) {x : α} (hx : x ∈ all) :
    ∃ y ∈ kept, key y = key x := by
  obtain ⟨y, hy, hfind⟩ := h.first x hx
  exact ⟨y, hy, by simpa using List.find?_some hfind⟩

/-- A kept thing comes before all others with its key. -/
theorem eq_or_rel_of_key_eq {R : α → α → Prop} {all kept : List α} (h : IsFirsts key all kept)
    (hall : all.Pairwise R) {x y : α} (hx : x ∈ all) (hy : y ∈ kept) (hkey : key x = key y) :
    x = y ∨ R y x := by
  obtain ⟨first, hfirst, hfind⟩ := h.first x hx
  have hsame : key first = key x := by simpa using List.find?_some hfind
  obtain rfl : first = y := h.eq_of_key_eq hfirst hy (hsame.trans hkey)
  obtain ⟨-, before, after, rfl, hbefore⟩ := List.find?_eq_some_iff_append.1 hfind
  rcases List.mem_append.1 hx with hx | hx
  · simpa using hbefore x hx
  · have hafter := List.pairwise_cons.1 (List.pairwise_append.1 hall).2.1
    exact (List.mem_cons.1 hx).imp_right (hafter.1 x)

/-- Only the keys of the things that there are matter. -/
theorem congr {key' : α → ι} {all kept : List α} (h : IsFirsts key all kept)
    (hkeys : ∀ a ∈ all, ∀ b ∈ all, key a = key b ↔ key' a = key' b) : IsFirsts key' all kept where
  sublist := h.sublist
  distinct := by
    have hdistinct := List.pairwise_map.1 h.distinct
    refine List.pairwise_map.2 (hdistinct.imp_of_mem fun ha hb hne => ?_)
    exact mt (hkeys _ (h.sublist.subset ha) _ (h.sublist.subset hb)).2 hne
  first x hx := by
    obtain ⟨y, hy, hfind⟩ := h.first x hx
    refine ⟨y, hy, hfind ▸ List.find?_congr fun z hz => ?_⟩
    exact decide_eq_decide.2 (hkeys z hz x hx).symm

end IsFirsts

/-- Nothing is made up and nothing changes its place. -/
theorem distinctBy_sublist (same : α → α → Bool) (xs : List α) :
    (distinctBy same xs).Sublist xs := by
  induction xs with
  | nil => exact .slnil
  | cons x xs ih => exact (List.filter_sublist.trans ih).cons_cons x

/-- **`distinctBy` keeps the first ones.** -/
theorem isFirsts_distinctBy (hkey : ∀ a b, same a b = true ↔ key a = key b) (xs : List α) :
    IsFirsts key xs (distinctBy same xs) := by
  induction xs with
  | nil => exact ⟨.slnil, .nil, by simp⟩
  | cons x xs ih =>
    refine ⟨distinctBy_sublist same _, ?_, fun z hz => ?_⟩
    · refine List.nodup_cons.2 ⟨fun hmem => ?_, (List.filter_sublist.map key).nodup ih.distinct⟩
      obtain ⟨y, hy, hsame⟩ := List.mem_map.1 hmem
      have hdiffers := (List.mem_filter.1 hy).2
      rw [(hkey x y).2 hsame.symm] at hdiffers
      cases hdiffers
    · by_cases hxz : key x = key z
      · exact ⟨x, List.mem_cons_self .., List.find?_cons_of_pos (by simpa using hxz)⟩
      · have hmem : z ∈ xs := (List.mem_cons.1 hz).resolve_left fun h => hxz (h ▸ rfl)
        obtain ⟨y, hy, hfind⟩ := ih.first z hmem
        have hyz : key y = key z := by simpa using List.find?_some hfind
        -- what has the key of the first thing cannot stand for `z`
        have hxy : same x y = false := by
          rw [Bool.eq_false_iff, ne_eq, hkey, hyz]
          exact hxz
        refine ⟨y, List.mem_cons_of_mem _ (List.mem_filter.2 ⟨hy, by simp [hxy]⟩), ?_⟩
        rw [List.find?_cons_of_neg (by simpa using hxz), hfind]

/-- Picking out things before or after gives the same, if same things are picked together. -/
theorem filter_distinctBy {keep : α → Bool} (hkeep : ∀ a b, same a b = true → keep a = keep b)
    (xs : List α) : (distinctBy same xs).filter keep = distinctBy same (xs.filter keep) := by
  induction xs with
  | nil => rfl
  | cons x xs ih =>
    rw [distinctBy]
    cases hx : keep x with
    | true =>
      rw [List.filter_cons_of_pos hx, List.filter_cons_of_pos hx, List.filter_comm, ih, distinctBy]
    | false =>
      rw [List.filter_cons_of_neg (by simp [hx]), List.filter_cons_of_neg (by simp [hx]), ← ih,
        List.filter_filter]
      refine List.filter_congr fun y _ => ?_
      cases hxy : same x y with
      | true => rw [← hkeep x y hxy, hx]; rfl
      | false => exact Bool.and_true _

/-- Things that are made of others are the same as these are. -/
theorem distinctBy_map (f : β → α) (xs : List β) :
    distinctBy same (xs.map f) = (distinctBy (fun a b => same (f a) (f b)) xs).map f := by
  induction xs with
  | nil => rfl
  | cons x xs ih =>
    rw [List.map_cons, distinctBy, ih, distinctBy, List.map_cons, List.filter_map]
    rfl

end Firsts

namespace Warning

/-- What a warning is known by: its code and its place. -/
def key (w : Warning) : WarningCode × Option (List Path.Step × Nat × Nat × String) :=
  (w.code, w.location.map Location.key)

theorem same_iff {a b : Warning} : a.same b = true ↔ a.key = b.key := by
  rw [same, Bool.and_eq_true, beq_iff_eq, key, key, Prod.mk.injEq]
  refine and_congr_right fun _ => ?_
  cases a.location <;> cases b.location <;> simp [sameLocation, Location.same_iff]

end Warning
end DependencyUse
