/-
# The order of places

Steps of paths, paths and locations are compared by functions.  Each is a total order
on what it compares:

| compared | by |
| --- | --- |
| steps | root, here, up, names by their characters |
| paths | their steps one after the other |
| locations | file, line, column, snippet |

So what `sortUnique` gives is in strictly increasing order, it is empty only if there was
nothing to sort, and it hangs only on which things there are, up to what counts as equal
(`map_sortUnique_congr`).  A merge sort by such an order gives a strictly increasing list if
no two things are equal, and there is only one such list (`mergeSort_eq_of_perm`).  In such a
list, looking up by halving finds what is there (`searchBy_eq_some_iff`).
-/

import DependencyUse.Location
import DependencyUse.Ordered
import Mathlib.Data.List.Induction
import Mathlib.Order.Compare

namespace DependencyUse
namespace Path

/-- The place of a form of step in the order. -/
def Step.rank : Step → Nat
  | .root => 0
  | .here => 1
  | .up => 2
  | .name _ => 3

/-- Steps are ordered by their form and then by how they are written. -/
theorem Step.cmp_eq_compareLex : Step.cmp = compareLex (compareOn rank) (compareOn text) := by
  funext a b
  cases a <;> cases b <;> rfl

instance : Std.TransCmp Step.cmp := by
  rw [Step.cmp_eq_compareLex]
  infer_instance

instance : Std.LawfulEqCmp Step.cmp where
  eq_of_compare {a b} h := by
    cases a <;> cases b <;> simp_all [Step.cmp]

theorem cmpSteps_eq_compareLex (as bs : List Step) :
    cmpSteps as bs = List.compareLex Step.cmp as bs := by
  fun_induction cmpSteps as bs with
  | case1 => rfl
  | case2 => rfl
  | case3 => rfl
  | case4 a as b bs ih => rw [List.compareLex_cons_cons, ih]

theorem cmp_eq_compareLex (p q : Path) : p.cmp q = List.compareLex Step.cmp p.steps q.steps :=
  cmpSteps_eq_compareLex p.steps q.steps

instance : Std.TransCmp Path.cmp where
  eq_swap {p q} := by
    rw [cmp_eq_compareLex, cmp_eq_compareLex]
    exact Std.OrientedCmp.eq_swap
  isLE_trans {p q r} hpq hqr := by
    rw [cmp_eq_compareLex] at hpq hqr ⊢
    exact Std.TransCmp.isLE_trans hpq hqr

/-- The order of things by a path that they have. -/
theorem transCmp_on {α : Type} (path : α → Path) :
    Std.TransCmp fun a b => (path a).cmp (path b) where
  eq_swap {a b} := @Std.OrientedCmp.eq_swap _ Path.cmp _ (path a) (path b)
  isLE_trans {a b c} := @Std.TransCmp.isLE_trans _ Path.cmp _ (path a) (path b) (path c)

/-- **Paths are equal in the order** exactly when their steps are the same. -/
theorem cmp_eq_eq_iff {p q : Path} : p.cmp q = .eq ↔ p.steps = q.steps := by
  rw [cmp_eq_compareLex]
  exact Std.LawfulEqCmp.compare_eq_iff_eq

theorem same_iff {p q : Path} : p.same q = true ↔ p.steps = q.steps := beq_iff_eq

end Path

namespace Location

/-- The order of locations, as one order after the other. -/
theorem cmp_eq_compareLex :
    cmp = compareLex (fun a b => a.file.cmp b.file) (compareLex (compareOn line)
      (compareLex (compareOn column) (compareOn snippet))) := rfl

instance : Std.TransCmp fun a b : Location => a.file.cmp b.file :=
  Path.transCmp_on file

instance : Std.TransCmp Location.cmp := by
  rw [cmp_eq_compareLex]
  infer_instance

/-- What a location is known by: the steps of its file, the line, the column and the snippet. -/
def key (l : Location) : List Path.Step × Nat × Nat × String :=
  (l.file.steps, l.line, l.column, l.snippet)

theorem same_iff {a b : Location} : a.same b = true ↔ a.key = b.key := by
  simp [same, key, Path.same_iff, and_assoc]

/-- **Locations are equal in the order** exactly when they are the same place. -/
theorem cmp_eq_eq_iff {a b : Location} : a.cmp b = .eq ↔ a.key = b.key := by
  simp [cmp, key, Ordering.then_eq_eq, Path.cmp_eq_eq_iff]

end Location

section SortUnique

variable {α : Type} {cmp : α → α → Ordering}

theorem placeBy_ne_nil (x : α) (ys : List α) : placeBy cmp x ys ≠ [] := by
  cases ys with
  | nil => simp [placeBy]
  | cons y ys => rw [placeBy]; split <;> simp

/-- Only the thing itself is new after it is put at its place. -/
theorem mem_of_mem_placeBy {x y : α} {ys : List α} (h : y ∈ placeBy cmp x ys) :
    y = x ∨ y ∈ ys := by
  induction ys with
  | nil => exact .inl (List.mem_singleton.1 h)
  | cons z zs ih =>
    rw [placeBy] at h
    split at h
    · exact List.mem_cons.1 h
    · exact .inr h
    · rcases List.mem_cons.1 h with rfl | h
      · exact .inr (List.mem_cons_self ..)
      · exact (ih h).imp_right (List.mem_cons_of_mem _)

/-- **Putting a thing at its place keeps the order strict.** -/
theorem pairwise_placeBy [Std.TransCmp cmp] (x : α) {ys : List α}
    (h : ys.Pairwise fun a b => cmp a b = .lt) :
    (placeBy cmp x ys).Pairwise fun a b => cmp a b = .lt := by
  induction ys with
  | nil => exact List.pairwise_singleton _ _
  | cons y ys ih =>
    obtain ⟨hy, hys⟩ := List.pairwise_cons.1 h
    rw [placeBy]
    split
    · rename_i hlt
      refine List.pairwise_cons.2 ⟨fun z hz => ?_, h⟩
      rcases List.mem_cons.1 hz with rfl | hz
      · exact hlt
      · exact Std.TransCmp.lt_trans hlt (hy z hz)
    · exact h
    · rename_i hgt
      refine List.pairwise_cons.2 ⟨fun z hz => ?_, ih hys⟩
      rcases mem_of_mem_placeBy hz with rfl | hz
      · exact Std.OrientedCmp.lt_of_gt hgt
      · exact hy z hz

theorem sortUnique_append_singleton (xs : List α) (x : α) :
    sortUnique cmp (xs ++ [x]) = placeBy cmp x (sortUnique cmp xs) := by
  rw [sortUnique, List.foldl_append]
  rfl

/-- **What is sorted is in strictly increasing order.** -/
theorem pairwise_sortUnique [Std.TransCmp cmp] (xs : List α) :
    (sortUnique cmp xs).Pairwise fun a b => cmp a b = .lt := by
  induction xs using List.reverseRecOn with
  | nil => exact List.Pairwise.nil
  | append_singleton xs x ih =>
    rw [sortUnique_append_singleton]
    exact pairwise_placeBy x ih

theorem mem_placeBy_of_mem (x : α) {y : α} {ys : List α} (h : y ∈ ys) : y ∈ placeBy cmp x ys := by
  induction ys with
  | nil => cases h
  | cons z zs ih =>
    rw [placeBy]
    split
    · exact List.mem_cons_of_mem _ h
    · exact h
    · rcases List.mem_cons.1 h with rfl | h
      · exact List.mem_cons_self ..
      · exact List.mem_cons_of_mem _ (ih h)

theorem exists_mem_placeBy [Std.ReflCmp cmp] (x : α) (ys : List α) :
    ∃ y ∈ placeBy cmp x ys, cmp x y = .eq := by
  induction ys with
  | nil => exact ⟨x, List.mem_singleton.2 rfl, Std.ReflCmp.compare_self⟩
  | cons z zs ih =>
    rw [placeBy]
    split
    · exact ⟨x, List.mem_cons_self .., Std.ReflCmp.compare_self⟩
    · rename_i heq
      exact ⟨z, List.mem_cons_self .., heq⟩
    · obtain ⟨y, hy, heq⟩ := ih
      exact ⟨y, List.mem_cons_of_mem _ hy, heq⟩

/-- Sorting makes up nothing. -/
theorem mem_of_mem_sortUnique {xs : List α} {y : α} (h : y ∈ sortUnique cmp xs) : y ∈ xs := by
  induction xs using List.reverseRecOn with
  | nil => cases h
  | append_singleton xs x ih =>
    rw [sortUnique_append_singleton] at h
    rcases mem_of_mem_placeBy h with rfl | h
    · simp
    · exact List.mem_append_left _ (ih h)

/-- **Sorting leaves nothing out** for which there is no equal thing. -/
theorem exists_mem_sortUnique [Std.ReflCmp cmp] {xs : List α} {x : α} (h : x ∈ xs) :
    ∃ y ∈ sortUnique cmp xs, cmp x y = .eq := by
  induction xs using List.reverseRecOn with
  | nil => cases h
  | append_singleton xs last ih =>
    rw [sortUnique_append_singleton]
    rcases List.mem_append.1 h with h | h
    · obtain ⟨y, hy, heq⟩ := ih h
      exact ⟨y, mem_placeBy_of_mem last hy, heq⟩
    · rw [List.mem_singleton.1 h]
      exact exists_mem_placeBy last _

theorem sortUnique_eq_nil_iff {xs : List α} : sortUnique cmp xs = [] ↔ xs = [] := by
  induction xs using List.reverseRecOn with
  | nil => simp [sortUnique]
  | append_singleton xs x _ =>
    rw [sortUnique_append_singleton]
    simp [placeBy_ne_nil]

section Keys

variable {κ : Type} {key : α → κ} (hkey : ∀ a b, cmp a b = .eq ↔ key a = key b)
include hkey

theorem mem_map_sortUnique [Std.ReflCmp cmp] {xs : List α} {k : κ} :
    k ∈ (sortUnique cmp xs).map key ↔ k ∈ xs.map key := by
  constructor
  · intro h
    obtain ⟨x, hx, rfl⟩ := List.mem_map.1 h
    exact List.mem_map_of_mem (mem_of_mem_sortUnique hx)
  · intro h
    obtain ⟨x, hx, rfl⟩ := List.mem_map.1 h
    obtain ⟨y, hy, heq⟩ := @exists_mem_sortUnique _ cmp _ _ _ hx
    exact List.mem_map.2 ⟨y, hy, ((hkey x y).1 heq).symm⟩

/-- The first thing of an increasing list is not above a thing whose key is in the list. -/
theorem isLE_head_of_mem [Std.TransCmp cmp] {x y : α} {xs : List α}
    (hx : ∀ z ∈ xs, cmp x z = .lt) (h : key y ∈ (x :: xs).map key) : (cmp x y).isLE = true := by
  rw [List.map_cons, List.mem_cons] at h
  rcases h with heq | hin
  · rw [(hkey x y).2 heq.symm]
    rfl
  · obtain ⟨z, hz, heq⟩ := List.mem_map.1 hin
    rw [Std.TransCmp.lt_of_lt_of_eq (hx z hz) ((hkey z y).2 heq)]
    rfl

/-- A key stands once in an increasing list. -/
theorem key_notMem_tail [Std.TransCmp cmp] {x : α} {xs : List α} (hx : ∀ z ∈ xs, cmp x z = .lt) :
    key x ∉ xs.map key := by
  intro hin
  obtain ⟨z, hz, heq⟩ := List.mem_map.1 hin
  have hlt := hx z hz
  rw [(hkey x z).2 heq.symm] at hlt
  cases hlt

/-- **There is one increasing list of some keys.** -/
theorem map_eq_of_pairwise_lt [Std.TransCmp cmp] {xs ys : List α}
    (hxs : xs.Pairwise fun a b => cmp a b = .lt) (hys : ys.Pairwise fun a b => cmp a b = .lt)
    (h : ∀ k, k ∈ xs.map key ↔ k ∈ ys.map key) : xs.map key = ys.map key := by
  induction xs generalizing ys with
  | nil => exact (List.eq_nil_iff_forall_not_mem.2 fun k hk => List.not_mem_nil ((h k).2 hk)).symm
  | cons x xs ih =>
    cases ys with
    | nil => exact absurd ((h (key x)).1 (List.mem_cons_self ..)) List.not_mem_nil
    | cons y ys =>
      obtain ⟨hx, hxs⟩ := List.pairwise_cons.1 hxs
      obtain ⟨hy, hys⟩ := List.pairwise_cons.1 hys
      have hhead : key x = key y := by
        -- each of the two first things is not above the other one
        have hxy := isLE_head_of_mem hkey hx ((h (key y)).2 (List.mem_cons_self ..))
        have hyx := isLE_head_of_mem hkey hy ((h (key x)).1 (List.mem_cons_self ..))
        exact (hkey x y).1 (Std.OrientedCmp.isLE_antisymm hxy hyx)
      have htail : ∀ k, k ∈ xs.map key ↔ k ∈ ys.map key := by
        intro k
        have hk := h k
        rw [List.map_cons, List.map_cons, List.mem_cons, List.mem_cons, hhead] at hk
        have hnotX := key_notMem_tail hkey hx
        have hnotY := key_notMem_tail hkey hy
        rw [hhead] at hnotX
        by_cases heq : k = key y
        · simp only [heq, hnotX, hnotY]
        · simpa only [heq, false_or] using hk
      rw [List.map_cons, List.map_cons, hhead, ih hxs hys htail]

/-- **What is sorted hangs only on which keys there are**, not on their order. -/
theorem map_sortUnique_congr [Std.TransCmp cmp] {xs ys : List α}
    (h : ∀ k, k ∈ xs.map key ↔ k ∈ ys.map key) :
    (sortUnique cmp xs).map key = (sortUnique cmp ys).map key := by
  refine map_eq_of_pairwise_lt hkey (pairwise_sortUnique xs) (pairwise_sortUnique ys) fun k => ?_
  rw [mem_map_sortUnique hkey, mem_map_sortUnique hkey, h]

end Keys

theorem mem_steps_sortUnique {xs : List Path} {steps : List Path.Step} :
    steps ∈ (sortUnique Path.cmp xs).map Path.steps ↔ steps ∈ xs.map Path.steps :=
  @mem_map_sortUnique _ Path.cmp _ Path.steps (fun _ _ => Path.cmp_eq_eq_iff) _ _ _

/-- **Sorted paths hang only on which paths there are**, not on their order. -/
theorem steps_sortUnique_congr {xs ys : List Path}
    (h : ∀ steps, steps ∈ xs.map Path.steps ↔ steps ∈ ys.map Path.steps) :
    (sortUnique Path.cmp xs).map Path.steps = (sortUnique Path.cmp ys).map Path.steps :=
  @map_sortUnique_congr _ Path.cmp _ Path.steps (fun _ _ => Path.cmp_eq_eq_iff) _ _ _ h

end SortUnique

section MergeSort

variable {α : Type} {cmp : α → α → Ordering} [Std.TransCmp cmp]

theorem pairwise_mergeSort (xs : List α) :
    (xs.mergeSort fun a b => cmp a b != .gt).Pairwise fun a b => cmp a b ≠ .gt := by
  have hle : ∀ {a b : α}, (cmp a b != .gt) = true ↔ (cmp a b).isLE = true := by
    intro a b
    cases cmp a b <;> decide
  have hsorted := @List.pairwise_mergeSort α (fun a b => cmp a b != .gt)
    (fun a b c hab hbc => hle.2 (Std.TransCmp.isLE_trans (hle.1 hab) (hle.1 hbc)))
    (fun a b => by
      rw [@Std.OrientedCmp.eq_swap α cmp _ b a]
      cases cmp a b <;> decide) xs
  exact hsorted.imp fun h => by simpa using h

/-- No two things are equal, in whatever order they come. -/
theorem pairwise_ne_of_perm {xs ys : List α} (hperm : xs.Perm ys)
    (h : xs.Pairwise fun a b => cmp a b ≠ .eq) : ys.Pairwise fun a b => cmp a b ≠ .eq :=
  hperm.pairwise h fun hab hba => hab (Std.OrientedCmp.eq_symm hba)

omit [Std.TransCmp cmp] in
theorem pairwise_ne_of_lt {xs : List α} (h : xs.Pairwise fun a b => cmp a b = .lt) :
    xs.Pairwise fun a b => cmp a b ≠ .eq :=
  h.imp fun hlt => by simp [hlt]

/-- **A list without equal things is sorted strictly.** -/
theorem pairwise_lt_mergeSort {xs : List α} (h : xs.Pairwise fun a b => cmp a b ≠ .eq) :
    (xs.mergeSort fun a b => cmp a b != .gt).Pairwise fun a b => cmp a b = .lt := by
  have hne : (xs.mergeSort fun a b => cmp a b != .gt).Pairwise fun a b => cmp a b ≠ .eq :=
    pairwise_ne_of_perm (List.mergeSort_perm xs _).symm h
  refine ((pairwise_mergeSort xs).and hne).imp fun {a b} hab => ?_
  cases hcmp : cmp a b with
  | lt => rfl
  | eq => exact absurd hcmp hab.2
  | gt => exact absurd hcmp hab.1

/-- **There is one strictly increasing list of some things.** -/
theorem mergeSort_eq_of_perm {xs ys : List α} (hperm : xs.Perm ys)
    (h : ys.Pairwise fun a b => cmp a b = .lt) : (xs.mergeSort fun a b => cmp a b != .gt) = ys := by
  have hne : xs.Pairwise fun a b => cmp a b ≠ .eq :=
    pairwise_ne_of_perm hperm.symm (pairwise_ne_of_lt h)
  refine ((List.mergeSort_perm xs _).trans hperm).eq_of_pairwise (fun a b _ _ hab hba => ?_)
    (pairwise_lt_mergeSort hne) h
  rw [Std.OrientedCmp.gt_of_lt hab] at hba
  cases hba

end MergeSort

section Search

variable {α : Type} {cmp : α → Ordering} {xs : Array α}

/-- The place `i` of a stretch of an array: all after it is too great, and what is at it is
not, unless it is the first place. -/
structure IsLastNotAbove (cmp : α → Ordering) (xs : Array α) (base size i : Nat) : Prop where
  low : base ≤ i
  high : i < base + size
  above : ∀ j (hj : j < xs.size), i < j → j < base + size → cmp xs[j] = .gt
  notAbove : ∀ hi : i < xs.size, i ≠ base → cmp xs[i] ≠ .gt

/-- **Halving finds the last thing that is not too great**, if what comes after a thing that
is not too small is too great. -/
theorem isLastNotAbove (hsorted : xs.toList.Pairwise fun a b => cmp a ≠ .lt → cmp b = .gt)
    {base size : Nat} (h : base + size ≤ xs.size) (hsize : 0 < size) :
    IsLastNotAbove cmp xs base size (lastNotAbove cmp xs base size h) := by
  have hafter : ∀ i j (hi : i < xs.size) (hj : j < xs.size), i < j → cmp xs[i] ≠ .lt →
      cmp xs[j] = .gt := fun i j hi hj hij => List.pairwise_iff_getElem.1 hsorted i j hi hj hij
  fun_induction lastNotAbove cmp xs base size h with
  | case1 base size h hsmall =>
    exact ⟨Nat.le_refl _, by omega, fun j _ _ _ => by omega, fun _ hne => absurd rfl hne⟩
  | case2 base size h hlarge half hmiddle hgt ih =>
    obtain ⟨hlow, hhigh, habove, hfound⟩ := ih (by omega)
    refine ⟨hlow, by omega, fun j hj hij _ => ?_, hfound⟩
    by_cases hin : j < base + (size - half)
    · exact habove j hj hij hin
    · -- the middle is too great, and so is what comes after it
      rcases Nat.eq_or_lt_of_le (show base + half ≤ j by omega) with heq | hlt
      · simpa only [← heq] using hgt
      · exact hafter _ _ hmiddle hj hlt (by simp [hgt])
  | case3 base size h hlarge half hmiddle hgt ih =>
    obtain ⟨hlow, hhigh, habove, hfound⟩ := ih (by omega)
    refine ⟨by omega, by omega, fun j hj hij hin => habove j hj hij (by omega), fun hi _ => ?_⟩
    by_cases heq : lastNotAbove cmp xs (base + half) (size - half) (by omega) = base + half
    · simpa only [heq] using hgt
    · exact hfound hi heq

/-- The place that halving finds is the one that is not too great before all that are. -/
theorem lastNotAbove_eq (hsorted : xs.toList.Pairwise fun a b => cmp a ≠ .lt → cmp b = .gt)
    {k : Nat} (hk : k < xs.size) (hnot : cmp xs[k] ≠ .gt)
    (habove : ∀ j (hj : j < xs.size), k < j → cmp xs[j] = .gt) :
    lastNotAbove cmp xs 0 xs.size (by omega) = k := by
  have hfound : IsLastNotAbove cmp xs 0 xs.size _ := isLastNotAbove hsorted (by omega) (by omega)
  have hi := hfound.high
  rcases Nat.lt_trichotomy (lastNotAbove cmp xs 0 xs.size (by omega)) k with hlow | heq | hhigh
  · exact absurd (hfound.above k hk hlow (by omega)) hnot
  · exact heq
  · exact absurd (habove _ (by omega) hhigh) (hfound.notAbove (by omega) (by omega))

/-- **In an array in order, the one thing that is looked for is found**, if it is there. -/
theorem searchBy_eq_some_iff
    (hsorted : xs.toList.Pairwise fun a b => cmp a ≠ .lt → cmp b = .gt) {x : α} :
    searchBy cmp xs = some x ↔ x ∈ xs ∧ cmp x = .eq := by
  rw [searchBy, Option.filter_eq_some_iff, beq_iff_eq]
  refine and_congr_left fun heq => ⟨Array.mem_of_getElem?, fun hmem => ?_⟩
  obtain ⟨k, hk, rfl⟩ := Array.mem_iff_getElem.1 hmem
  have habove : ∀ j (hj : j < xs.size), k < j → cmp xs[j] = .gt := fun j hj hkj =>
    List.pairwise_iff_getElem.1 hsorted k j hk hj hkj (by simp [heq])
  rw [lastNotAbove_eq hsorted hk (by simp [heq]) habove]
  exact Array.getElem?_eq_getElem hk

end Search
end DependencyUse
