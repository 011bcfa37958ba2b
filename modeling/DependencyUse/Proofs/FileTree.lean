/-
# Proper file trees

A directory of a disk has no two entries of one name, and the name of an entry is one
piece of a path that stands for itself: it is not empty, not `.` or `..`, and has no slash
in it.  A tree is proper if this holds of all its directories.

| of a proper tree | holds |
| --- | --- |
| an entry of a directory | is what its name leads to (`child?_eq_some_iff`) |
| what some names lead to | is proper (`IsProper.get?`) |
| names that lead somewhere | are plain (`IsProper.isPlain_of_get?`) |
| what a path of the disk leads to | is proper (`IsProper.lookup`) |
-/

import DependencyUse.Proofs.Path.Tidy
import Mathlib.Data.List.Nodup

namespace DependencyUse
namespace FileTree

/-- A tree that a disk can hold. -/
inductive IsProper : FileTree → Prop where
  | file (content : Content) : IsProper (.file content)
  | dir {entries : List (String × FileTree)} (distinct : (entries.map Prod.fst).Nodup)
      (named : ∀ e ∈ entries, (Path.Step.name e.1).IsPlain)
      (trees : ∀ e ∈ entries, IsProper e.2) : IsProper (.dir entries)

theorem isProper_file (content : Content) : (file content).IsProper := .file content

theorem isProper_dir_iff {entries : List (String × FileTree)} :
    (dir entries).IsProper ↔ (entries.map Prod.fst).Nodup ∧
      (∀ e ∈ entries, (Path.Step.name e.1).IsPlain) ∧ ∀ e ∈ entries, e.2.IsProper :=
  ⟨fun | .dir distinct named trees => ⟨distinct, named, trees⟩,
    fun ⟨distinct, named, trees⟩ => .dir distinct named trees⟩

theorem child?_dir_cons (e : String × FileTree) (entries : List (String × FileTree))
    (name : String) :
    (dir (e :: entries)).child? name
      = if e.1 = name then some e.2 else (dir entries).child? name := by
  show ((e :: entries).find? fun e => e.1 == name).map Prod.snd = _
  by_cases he : e.1 = name
  · rw [List.find?_cons_of_pos (by simpa using he), if_pos he]
    rfl
  · rw [List.find?_cons_of_neg (by simpa using he), if_neg he]
    rfl

/-- **The entries of a directory are what their names lead to**, if no two have one name. -/
theorem child?_eq_some_iff {entries : List (String × FileTree)}
    (distinct : (entries.map Prod.fst).Nodup) {name : String} {t : FileTree} :
    (dir entries).child? name = some t ↔ (name, t) ∈ entries := by
  induction entries with
  | nil => simp [child?, FileTree.entries]
  | cons e entries ih =>
    rw [List.map_cons, List.nodup_cons] at distinct
    rw [child?_dir_cons, List.mem_cons, Prod.ext_iff]
    split
    · rename_i he
      have hnot : (name, t) ∉ entries := fun hmem =>
        distinct.1 (List.mem_map.2 ⟨_, hmem, he.symm⟩)
      simp [he, hnot, eq_comm]
    · rename_i he
      rw [ih distinct.2]
      simp [Ne.symm he]

theorem child?_file (content : Content) (name : String) : (file content).child? name = none := rfl

/-- What some names lead to in a file: the file itself, by no names at all. -/
theorem get?_file_eq_some_iff {content : Content} {names : List String} {t : FileTree} :
    (file content).get? names = some t ↔ names = [] ∧ file content = t := by
  cases names with
  | nil => simp [get?]
  | cons name names => simp [get?, child?_file]

theorem get?_cons_eq_some_iff {tree : FileTree} {name : String} {names : List String}
    {t : FileTree} : tree.get? (name :: names) = some t ↔
      ∃ child, tree.child? name = some child ∧ child.get? names = some t :=
  Option.bind_eq_some_iff

namespace IsProper

/-- What a name leads to in a proper tree is proper, and the name is plain. -/
theorem child? {tree child : FileTree} (h : tree.IsProper) {name : String}
    (hchild : tree.child? name = some child) :
    (Path.Step.name name).IsPlain ∧ child.IsProper := by
  cases h with
  | file content => cases hchild
  | dir distinct named trees =>
    have hmem := (child?_eq_some_iff distinct).1 hchild
    exact ⟨named _ hmem, trees _ hmem⟩

/-- **What some names lead to in a proper tree is proper.** -/
theorem get? {tree t : FileTree} (h : tree.IsProper) {names : List String}
    (ht : tree.get? names = some t) : t.IsProper := by
  induction names generalizing tree with
  | nil => exact Option.some.inj ht ▸ h
  | cons name names ih =>
    obtain ⟨child, hchild, ht⟩ := get?_cons_eq_some_iff.1 ht
    exact ih (h.child? hchild).2 ht

/-- Names that lead somewhere in a proper tree are plain. -/
theorem isPlain_of_get? {tree t : FileTree} (h : tree.IsProper) {names : List String}
    (ht : tree.get? names = some t) : ∀ name ∈ names, (Path.Step.name name).IsPlain := by
  induction names generalizing tree with
  | nil => simp
  | cons name names ih =>
    obtain ⟨child, hchild, ht⟩ := get?_cons_eq_some_iff.1 ht
    exact List.forall_mem_cons.2 ⟨(h.child? hchild).1, ih (h.child? hchild).2 ht⟩

/-- **What a path leads to on a disk with a proper tree is proper.** -/
theorem lookup {d : Disk} (h : d.tree.IsProper) {p : Path} {t : FileTree}
    (ht : d.lookup p = .ok t) : t.IsProper := by
  rw [Disk.lookup] at ht
  cases hnames : d.locate p with
  | error fault => rw [hnames] at ht; cases ht
  | ok names =>
    rw [hnames, Except.bind] at ht
    cases hget : d.tree.get? names with
    | none => simp only [hget] at ht; cases ht
    | some found =>
      simp only [hget] at ht
      cases ht
      exact h.get? hget

end IsProper
end FileTree
end DependencyUse
