/-
# What sets of names hold

The operations on sets of names said by membership, and the scan for the names that
start with a given text.  The scan stops early; nothing is missed by that, because in
the order of names

| a name | stands |
| --- | --- |
| that starts with the text | not before the text |
| that does not, and is not before the text | after every name that starts with it |

so the names that start with the text are neighbours, and the scan is a filter of the
whole set (`below_eq_filter`).  Without a scan, the members of a name are

| step | for `n` in `n`, `n-x.a`, `n.a.b`, `n..c`, `n.d`, `n/x.a` |
| --- | --- |
| the names that start with `name.` | `n.a.b`, `n..c`, `n.d` |
| what follows | `a.b`, `.c`, `d` |
| its first piece between dots, if not empty | `a`, `d` |

in the order of the set (`membersOf_eq_filterMap`).
-/

import DependencyUse.CallGraph.Basic
import Mathlib.Data.List.Sort
import Mathlib.Data.List.TakeWhile
import Mathlib.Data.String.Basic

namespace DependencyUse
namespace NameSet

theorem mem_insert {s : NameSet} {name y : String} :
    y ∈ (s.insert name).toList ↔ y = name ∨ y ∈ s.toList :=
  mem_place

theorem mem_insertAll {s : NameSet} {names : List String} {y : String} :
    y ∈ (s.insertAll names).toList ↔ y ∈ names ∨ y ∈ s.toList := by
  induction names generalizing s with
  | nil => simp [insertAll]
  | cons name names ih =>
    show y ∈ ((s.insert name).insertAll names).toList ↔ _
    rw [ih, mem_insert, List.mem_cons]
    tauto

/-- **The set of a list holds the names of the list.** -/
@[simp] theorem mem_ofList {names : List String} {y : String} :
    y ∈ (ofList names).toList ↔ y ∈ names := by
  show y ∈ (empty.insertAll names).toList ↔ _
  rw [mem_insertAll]
  exact or_iff_left List.not_mem_nil

@[simp] theorem contains_iff {s : NameSet} {name : String} :
    s.contains name = true ↔ name ∈ s.toList := by
  simp [contains]

theorem mem_inter {s t : NameSet} {name : String} :
    name ∈ (s.inter t).toList ↔ name ∈ s.toList ∧ name ∈ t.toList := by
  simp [inter]

theorem mem_diff {s t : NameSet} {name : String} :
    name ∈ (s.diff t).toList ↔ name ∈ s.toList ∧ name ∉ t.toList := by
  simp [diff, contains]

theorem isEmpty_iff {s : NameSet} : s.isEmpty = true ↔ s.toList = [] := by
  simp [isEmpty]

/-- Sets that hold the same names list them alike. -/
theorem toList_eq_iff {s t : NameSet} :
    s.toList = t.toList ↔ ∀ name, name ∈ s.toList ↔ name ∈ t.toList :=
  ⟨fun h name => by rw [h], fun h => s.strict.eq_of_mem_iff t.strict h⟩

/-- Sets of the same names are the same. -/
theorem ofList_congr {xs ys : List String} (h : ∀ name, name ∈ xs ↔ name ∈ ys) :
    ofList xs = ofList ys := by
  rw [NameSet.mk.injEq, toList_eq_iff]
  intro name
  rw [mem_ofList, mem_ofList, h]

end NameSet

/-- A text is not below its own beginning. -/
theorem not_lt_of_prefix {head name : List Char} (h : head <+: name) : ¬ name < head := by
  obtain ⟨rest, rfl⟩ := h
  induction head with
  | nil => exact List.not_lt_nil _
  | cons c head ih =>
    rw [List.cons_append, List.cons_lt_cons_iff]
    rintro (h | ⟨-, h⟩)
    · exact lt_irrefl c h
    · exact ih h

/-- **Nothing that starts with a text comes after a name above it that does not.** -/
theorem append_lt_of_not_prefix {head name : List Char} (rest : List Char)
    (habove : ¬ name < head) (hnot : ¬ head <+: name) : head ++ rest < name := by
  induction head generalizing name with
  | nil => exact absurd (List.nil_prefix) hnot
  | cons c head ih =>
    cases name with
    | nil => exact absurd (List.nil_lt_cons c head) habove
    | cons d name =>
      rw [List.cons_lt_cons_iff, not_or, not_and] at habove
      rw [List.cons_append, List.cons_lt_cons_iff]
      rcases eq_or_ne c d with rfl | hne
      · refine .inr ⟨rfl, ih (habove.2 rfl) fun hp => hnot ?_⟩
        exact List.cons_prefix_cons.2 ⟨rfl, hp⟩
      · exact .inl (lt_of_le_of_ne (not_lt.1 habove.1) hne)

/-- Where what satisfies `P` comes first, the part up to the first thing that does not
is all of it. -/
theorem takeWhile_eq_filter {α : Type} {P : α → Bool} {xs : List α}
    (hfirst : xs.Pairwise fun x y => P y = true → P x = true) : xs.takeWhile P = xs.filter P := by
  induction xs with
  | nil => rfl
  | cons x xs ih =>
    obtain ⟨hx, hxs⟩ := List.pairwise_cons.1 hfirst
    cases hP : P x with
    | true => rw [List.takeWhile_cons_of_pos hP, List.filter_cons_of_pos hP, ih hxs]
    | false =>
      rw [List.takeWhile_cons_of_neg (by simp [hP]), List.filter_cons_of_neg (by simp [hP])]
      refine (List.filter_eq_nil_iff.2 fun y hy hy' => ?_).symm
      rw [hx y hy hy'] at hP
      cases hP

namespace NameSet

/-- Of two names not below a text, the first one starts with it if the second one does. -/
theorem isPrefixOf_of_lt {head a b : String} (habove : ¬ a < head) (hab : a < b)
    (hb : head.toList.isPrefixOf b.toList = true) : head.toList.isPrefixOf a.toList = true := by
  rw [List.isPrefixOf_iff_prefix] at hb ⊢
  by_contra hnot
  obtain ⟨rest, hrest⟩ := hb
  have hba := append_lt_of_not_prefix rest (mt String.lt_iff.2 habove) hnot
  rw [hrest] at hba
  exact lt_asymm hab (String.lt_iff.2 hba)

/-- **The scan misses nothing**: it finds the names of the set that start with `head`. -/
theorem below_eq_filter (s : NameSet) (head : String) :
    s.below head = s.toList.filter fun name => head.toList.isPrefixOf name.toList := by
  obtain ⟨names, hstrict⟩ := s
  show (names.dropWhile fun name => name < head).takeWhile _ = names.filter _
  induction names with
  | nil => rfl
  | cons x xs ih =>
    obtain ⟨hx, hxs⟩ := List.pairwise_cons.1 hstrict
    by_cases hlt : x < head
    · have hnot : ¬ head.toList.isPrefixOf x.toList = true := fun hp =>
        not_lt_of_prefix (List.isPrefixOf_iff_prefix.1 hp) (String.lt_iff.1 hlt)
      rw [List.dropWhile_cons_of_pos (by simpa using hlt), ih hxs]
      simp [hnot]
    · rw [List.dropWhile_cons_of_neg (by simpa using hlt)]
      refine takeWhile_eq_filter (hstrict.imp_of_mem fun {a b} ha _ hab => ?_)
      refine isPrefixOf_of_lt (fun hlow => ?_) hab
      rcases List.mem_cons.1 ha with rfl | ha
      · exact hlt hlow
      · exact hlt (lt_trans (hx a ha) hlow)

end NameSet

/-! ## Members -/

/-- The member of `name` in a dotted name: what follows `name.`, up to the next dot. -/
def memberIn? (name full : String) : Option String :=
  (full.toList.dropPrefix? (name.toList ++ ['.'])).bind fun rest =>
    (Text.split '.' (String.ofList rest)).head?.filter (· ≠ "")

/-- A dotted name leads through `name` to a member of it: it is `name.member`, or goes on after
another dot. -/
def LeadsTo (name member full : String) : Prop :=
  member ≠ "" ∧ '.' ∉ member.toList ∧
    (full = name ++ "." ++ member ∨ ∃ more, full = name ++ "." ++ member ++ "." ++ more)

/-- Up to the first dot, a path is the same with a member after it. -/
theorem firstSegment_append_dot (path rest : List Char) :
    firstSegment (path ++ '.' :: rest) = firstSegment path := by
  induction path with
  | nil => rfl
  | cons c path ih =>
    simp only [firstSegment, List.cons_append, List.takeWhile_cons] at ih ⊢
    rw [ih]

theorem firstSegment_of_no_dot {name : List Char} (h : '.' ∉ name) : firstSegment name = name := by
  rw [firstSegment, List.takeWhile_eq_self_iff]
  intro c hc
  simpa using fun hdot : c = '.' => h (hdot ▸ hc)

theorem toList_append_dot (a b : String) :
    (a ++ "." ++ b).toList = a.toList ++ '.' :: b.toList := by
  simp

/-- The first piece is what stands before the first separator. -/
theorem Text.head?_splitChars (sep : Char) (cs : List Char) :
    (Text.splitChars sep cs).head? = some (cs.takeWhile (· ≠ sep)) := by
  induction cs with
  | nil => rfl
  | cons c cs ih =>
    rw [Text.splitChars]
    by_cases hc : c = sep
    · rw [if_pos hc, List.takeWhile_cons_of_neg (by simpa using hc), List.head?_cons]
    · obtain ⟨pieces, hpieces⟩ := List.head?_eq_some_iff.1 ih
      rw [if_neg hc, hpieces, List.takeWhile_cons_of_pos (by simpa using hc)]
      rfl

/-- The member in a text that starts with `name.`. -/
theorem memberIn?_of_dotted {name full : String} {rest : List Char}
    (h : full.toList = name.toList ++ '.' :: rest) :
    memberIn? name full
      = if (firstSegment rest).isEmpty then none else some (String.ofList (firstSegment rest)) := by
  have hrest : full.toList.dropPrefix? (name.toList ++ ['.']) = some rest :=
    List.dropPrefix?_eq_some_iff.2 ⟨name.toList ++ ['.'], by simp [h], BEq.rfl⟩
  have hfirst : (Text.split '.' (String.ofList rest)).head?
      = some (String.ofList (firstSegment rest)) := by
    rw [Text.split, List.head?_map, String.toList_ofList, Text.head?_splitChars]
    rfl
  rw [memberIn?, hrest, Option.bind_some, hfirst, Option.filter_some]
  by_cases hempty : firstSegment rest = [] <;> simp [hempty]

/-- A text that does not start with `name.` has no member of `name`. -/
theorem memberIn?_eq_none {name full : String}
    (h : ¬ (name.toList ++ ['.']) <+: full.toList) : memberIn? name full = none := by
  have hnone : full.toList.dropPrefix? (name.toList ++ ['.']) = none := by
    refine Option.eq_none_iff_forall_ne_some.2 fun rest hrest => h ?_
    obtain ⟨front, hfull, hfront⟩ := List.dropPrefix?_eq_some_iff.1 hrest
    exact ⟨rest, by rw [hfull, eq_of_beq hfront]⟩
  rw [memberIn?, hnone, Option.bind_none]

/-- **The members of a name without a scan**: the whole set, filtered. -/
theorem NameSet.membersOf_eq_filterMap (s : NameSet) (name : String) :
    s.membersOf name = s.toList.filterMap (memberIn? name) := by
  have hhead : (name ++ ".").toList = name.toList ++ ['.'] := by simp
  rw [membersOf, below_eq_filter, List.filterMap_filter]
  refine List.filterMap_congr fun full _ => ?_
  rw [hhead]
  split
  · rename_i hprefix
    obtain ⟨rest, hrest⟩ := List.isPrefixOf_iff_prefix.1 hprefix
    have hdotted : full.toList = name.toList ++ '.' :: rest := by simp [← hrest]
    have hdrop : full.toList.drop (name ++ ".").length = rest := by
      rw [← String.length_toList, hhead, ← hrest, List.drop_left]
    rw [memberIn?_of_dotted hdotted, hdrop]
  · rename_i hprefix
    rw [memberIn?_eq_none fun h => hprefix (List.isPrefixOf_iff_prefix.2 h)]

/-- A text is its first segment, or goes on with a dot. -/
theorem firstSegment_cases (rest : List Char) :
    rest = firstSegment rest ∨ ∃ more, rest = firstSegment rest ++ '.' :: more := by
  have hsplit : firstSegment rest ++ rest.dropWhile (· ≠ '.') = rest :=
    List.takeWhile_append_dropWhile
  cases hafter : rest.dropWhile (· ≠ '.') with
  | nil =>
    rw [hafter, List.append_nil] at hsplit
    exact .inl hsplit.symm
  | cons c more =>
    have hc : c = '.' := by
      have hfirst := List.head?_dropWhile_not (fun c : Char => decide (c ≠ '.')) rest
      rw [hafter] at hfirst
      simpa using hfirst
    rw [hafter, hc] at hsplit
    exact .inr ⟨more, hsplit.symm⟩

theorem dot_notMem_firstSegment (rest : List Char) : '.' ∉ firstSegment rest :=
  fun hdot => by simpa using List.mem_takeWhile_imp hdot

/-- **The member that is read off a dotted name** is the one that it leads to. -/
theorem memberIn?_eq_some_iff {name member full : String} :
    memberIn? name full = some member ↔ LeadsTo name member full := by
  constructor
  · intro h
    by_cases hprefix : (name.toList ++ ['.']) <+: full.toList
    · obtain ⟨rest, hrest⟩ := hprefix
      have hdotted : full.toList = name.toList ++ '.' :: rest := by simp [← hrest]
      rw [memberIn?_of_dotted hdotted] at h
      split at h
      · cases h
      · rename_i hne
        have hmember : member.toList = firstSegment rest := by
          rw [← Option.some.inj h, String.toList_ofList]
        refine ⟨by simpa [← hmember] using hne, hmember ▸ dot_notMem_firstSegment rest, ?_⟩
        rcases firstSegment_cases rest with hall | ⟨more, hmore⟩
        · exact .inl (String.toList_inj.1 (by simp [hdotted, hmember, ← hall]))
        · exact .inr ⟨String.ofList more, String.toList_inj.1 (by simp [hdotted, hmember, ← hmore])⟩
    · rw [memberIn?_eq_none hprefix] at h
      cases h
  · rintro ⟨hne, hdot, rfl | ⟨more, rfl⟩⟩
    · rw [memberIn?_of_dotted (toList_append_dot name member),
        firstSegment_of_no_dot hdot]
      simpa using hne
    · have hdotted : (name ++ "." ++ member ++ "." ++ more).toList
          = name.toList ++ '.' :: (member.toList ++ '.' :: more.toList) := by simp
      rw [memberIn?_of_dotted hdotted, firstSegment_append_dot,
        firstSegment_of_no_dot hdot]
      simpa using hne

/-- **Members are those that names of the set lead to.** -/
theorem NameSet.mem_membersOf {s : NameSet} {name member : String} :
    member ∈ s.membersOf name ↔ ∃ full ∈ s.toList, LeadsTo name member full := by
  rw [membersOf_eq_filterMap, List.mem_filterMap]
  simp only [memberIn?_eq_some_iff]

/-- A name that leads to a member goes on with a dot. -/
theorem LeadsTo.exists_rest {name member full : String} (h : LeadsTo name member full) :
    ∃ rest, full.toList = name.toList ++ '.' :: rest := by
  obtain ⟨-, -, rfl | ⟨more, rfl⟩⟩ := h
  · exact ⟨member.toList, toList_append_dot name member⟩
  · exact ⟨member.toList ++ '.' :: more.toList, by simp⟩

end DependencyUse
