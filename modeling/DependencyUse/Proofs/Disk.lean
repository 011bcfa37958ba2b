/-
# Writing to a disk

What stands at a place of a tree is nothing, a directory, or a file with its content; what
is in a directory stands at other places.  So two trees can be compared place by place, and
writing a file changes what stands at one place:

| place | before | after |
| --- | --- | --- |
| that of the file | nothing, or a file | the file with the text |
| any other | | as before |

The path of the file leads to that place afterwards, since all directories on its way are
still there (`onlyWrites_of_writeText`).
-/

import DependencyUse.Proofs.FileTree
import DependencyUse.Proofs.Outcome

namespace DependencyUse

/-- What stands at a place, without what is in it. -/
inductive Standing where
  | directory
  | file (content : Content)
deriving DecidableEq, Repr

namespace FileTree

/-- What the root of a tree is. -/
def standing : FileTree → Standing
  | .dir _ => .directory
  | .file content => .file content

@[simp] theorem standing_dir (entries : List (String × FileTree)) :
    (dir entries).standing = .directory := rfl

@[simp] theorem standing_file (content : Content) : (file content).standing = .file content := rfl

/-- What stands at the end of some names. -/
def stands? (t : FileTree) (names : List String) : Option Standing :=
  (t.get? names).map standing

theorem stands?_nil (t : FileTree) : t.stands? [] = some t.standing := rfl

theorem stands?_cons (t : FileTree) (name : String) (names : List String) :
    t.stands? (name :: names) = (t.child? name).bind fun c => c.stands? names := by
  rw [stands?, get?]
  cases t.child? name <;> rfl

theorem stands?_file_cons (content : Content) (name : String) (names : List String) :
    (file content).stands? (name :: names) = none := rfl

theorem get?_append (t : FileTree) (names more : List String) :
    t.get? (names ++ more) = (t.get? names).bind fun c => c.get? more := by
  induction names generalizing t with
  | nil => rfl
  | cons name names ih =>
    rw [List.cons_append, get?, get?]
    cases t.child? name with
    | none => rfl
    | some c => exact ih c

/-! ### Placing an entry -/

/-- **The entry that is placed** is the one of its name, and the others are as before. -/
theorem child?_placeEntry (name : String) (new : FileTree) (entries : List (String × FileTree))
    (other : String) :
    (dir (placeEntry (name, new) entries)).child? other
      = if name = other then some new else (dir entries).child? other := by
  induction entries with
  | nil => simp [placeEntry, child?_dir_cons]
  | cons e entries ih =>
    rw [placeEntry]
    split
    · rw [child?_dir_cons]
    · rename_i hle
      split
      · rename_i hlt
        have hne : e.1 ≠ name := fun heq => String.lt_irrefl name (heq ▸ hlt)
        rw [child?_dir_cons, child?_dir_cons, ih]
        by_cases he : e.1 = other
        · rw [if_pos he, if_pos he, if_neg fun h => hne (he.trans h.symm)]
        · rw [if_neg he, if_neg he]
      · rename_i hge
        have heq : e.1 = name := String.le_antisymm (String.not_lt.1 hle) (String.not_lt.1 hge)
        rw [child?_dir_cons, child?_dir_cons, heq]
        by_cases h : name = other
        · rw [if_pos h, if_pos h]
        · rw [if_neg h, if_neg h, if_neg h]

/-- **A file that is put** stands at its place, and everywhere else stands what stood there.
Its directory must be there, and there must be none at its place. -/
theorem stands?_put {t : FileTree} {above : List String} {name : String}
    (habove : t.stands? above = some .directory)
    (hname : t.stands? (above ++ [name]) ≠ some .directory) (content : Content)
    (names : List String) :
    (t.put (above ++ [name]) (.file content)).stands? names
      = if names = above ++ [name] then some (.file content) else t.stands? names := by
  -- along the directories above the file, which are all there
  induction above generalizing t names with
  | nil =>
    rw [List.nil_append] at hname ⊢
    rw [put]
    cases names with
    | nil => simpa [stands?_nil] using habove.symm
    | cons first rest =>
      rw [stands?_cons, stands?_cons, put, child?_placeEntry]
      by_cases hfirst : name = first
      · subst hfirst
        rw [if_pos rfl, Option.bind_some]
        cases rest with
        | nil => simp [stands?_nil]
        | cons next rest =>
          -- below a file there is nothing, before and after
          rw [if_neg (by simp), stands?_file_cons]
          rw [stands?_cons] at hname
          cases hchild : t.child? name with
          | none => rfl
          | some child =>
            cases child with
            | file old => exact (stands?_file_cons old next rest).symm
            | dir inner => exact absurd (by rw [hchild]; rfl) hname
      · have hne : first :: rest ≠ [name] := fun h => hfirst (List.cons.inj h).1.symm
        rw [if_neg hfirst, if_neg hne]
        rfl
  | cons first above ih =>
    rw [stands?_cons] at habove
    obtain ⟨child, hchild, habove⟩ := Option.bind_eq_some_iff.1 habove
    rw [List.cons_append, stands?_cons, hchild, Option.bind_some] at hname
    rw [List.cons_append, put, hchild, Option.getD_some]
    cases names with
    | nil =>
      cases t with
      | file content => cases hchild
      | dir entries => rfl
    | cons next rest =>
      rw [stands?_cons, stands?_cons, child?_placeEntry]
      by_cases hnext : first = next
      · subst hnext
        rw [if_pos rfl, Option.bind_some, ih habove hname, hchild, Option.bind_some]
        simp
      · have hne : next :: rest ≠ first :: (above ++ [name]) := fun h =>
          hnext (List.cons.inj h).1.symm
        rw [if_neg hnext, if_neg hne]
        rfl

end FileTree

namespace Disk

/-! ### Following a path -/

theorem follow_append (tree : FileTree) (place pieces more : List String) :
    follow tree place (pieces ++ more)
      = (follow tree place pieces).bind fun names => follow tree names more := by
  induction pieces generalizing place with
  | nil => rfl
  | cons piece pieces ih =>
    rw [List.cons_append, follow, follow]
    cases tree.get? place with
    | none => rfl
    | some t =>
      simp only [ih]
      split
      · rfl
      split
      · rfl
      split
      · rfl
      split <;> rfl

/-- The piece is the name of an entry. -/
def isName (piece : String) : Bool :=
  !(piece = "" || piece = "." || piece = "..")

/-- Where a piece leads from a directory. -/
def next (place : List String) (piece : String) : List String :=
  if piece = "" || piece = "." then place
  else if piece = ".." then place.dropLast
  else place ++ [piece]

theorem next_of_isName {piece : String} (h : isName piece = true) (place : List String) :
    next place piece = place ++ [piece] := by
  have hpiece : (¬ piece = "" ∧ ¬ piece = ".") ∧ ¬ piece = ".." := by simpa [isName] using h
  simp [next, hpiece]

/-- **A piece is followed** from a directory, and to an entry that is there. -/
theorem follow_cons_eq_ok_iff {tree : FileTree} {place pieces names : List String}
    {piece : String} :
    follow tree place (piece :: pieces) = .ok names ↔
      tree.stands? place = some .directory ∧
        (isName piece = true → (tree.stands? (place ++ [piece])).isSome = true) ∧
        follow tree (next place piece) pieces = .ok names := by
  rw [follow, FileTree.stands?, FileTree.stands?, FileTree.get?_append]
  cases tree.get? place with
  | none => simp
  | some t =>
    cases t with
    | file content => simp [FileTree.isDir, FileTree.standing]
    | dir entries =>
      simp only [isName, next, FileTree.isDir]
      by_cases hstay : (piece = "" || piece = ".") = true
      · simp [hstay]
      · by_cases hup : piece = ".."
        · simp [hup]
        · cases hchild : (FileTree.dir entries).child? piece <;>
            simp [hstay, hup, hchild, FileTree.get?]

/-- **A path leads to the same place** in a tree that has all directories and entries on its
way. -/
theorem follow_of_kept {tree after : FileTree}
    (hdir : ∀ names, tree.stands? names = some .directory → after.stands? names = some .directory)
    (hthere : ∀ names, (tree.stands? names).isSome = true → (after.stands? names).isSome = true)
    {place pieces names : List String} (h : follow tree place pieces = .ok names) :
    follow after place pieces = .ok names := by
  induction pieces generalizing place with
  | nil => exact h
  | cons piece pieces ih =>
    obtain ⟨hplace, hpiece, hrest⟩ := follow_cons_eq_ok_iff.1 h
    exact follow_cons_eq_ok_iff.2
      ⟨hdir place hplace, fun hname => hthere _ (hpiece hname), ih hrest⟩

section Place

variable {d : Disk} {p : Path} {before above names : List String} {last : String}

/-- The way of a path up to its last piece, and the directory that it leads to. -/
structure LeadsInto (d : Disk) (p : Path) (before : List String) (last : String)
    (above : List String) : Prop where
  nonempty : p.text.isEmpty = false
  pieces : Text.split '/' p.text = before ++ [last]
  isName : isName last = true
  follow : follow d.tree (d.origin p) before = .ok above
  directory : d.tree.stands? above = some .directory

/-- A path leads to the entry of its last name, if that is there. -/
theorem LeadsInto.locate (h : d.LeadsInto p before last above)
    (hthere : (d.tree.stands? (above ++ [last])).isSome = true) :
    d.locate p = .ok (above ++ [last]) := by
  have hlast : Disk.follow d.tree above [last] = .ok (above ++ [last]) := by
    refine follow_cons_eq_ok_iff.2 ⟨h.directory, fun _ => hthere, ?_⟩
    rw [next_of_isName h.isName, Disk.follow]
  rw [Disk.locate, if_neg (by simp [h.nonempty]), h.pieces, follow_append, h.follow]
  exact hlast

/-- **Where a file is written**: where its path leads, which is no directory. -/
theorem exists_of_target (h : d.target p = .ok names) :
    ∃ before last above, d.LeadsInto p before last above ∧ names = above ++ [last] ∧
      d.tree.stands? names ≠ some .directory := by
  rw [target] at h
  split at h
  · cases h
  rename_i hnonempty
  cases hlast : (Text.split '/' p.text).getLast? with
  | none => simp only [hlast] at h; cases h
  | some last =>
    simp only [hlast] at h
    obtain ⟨above, hfollow, h⟩ := bind_eq_ok_iff.1 h
    have hpieces := (List.dropLast_append_getLast? last hlast).symm
    cases habove : d.tree.get? above with
    | none => simp only [habove] at h; cases h
    | some t =>
      cases t with
      | file content => simp only [habove] at h; cases h
      | dir entries =>
        simp only [habove] at h
        split at h
        · cases h
        rename_i hname
        have hinto : d.LeadsInto p _ last above :=
          ⟨by simpa using hnonempty, hpieces, by simpa [isName] using hname, hfollow,
            by rw [FileTree.stands?, habove]; rfl⟩
        cases hchild : (FileTree.dir entries).child? last with
        | none =>
          simp only [hchild] at h
          obtain rfl := Except.ok.inj h
          exact ⟨_, last, above, hinto, rfl, by
            simp [FileTree.stands?, FileTree.get?_append, habove, FileTree.get?, hchild]⟩
        | some child =>
          cases child with
          | dir inner => simp only [hchild] at h; cases h
          | file content =>
            simp only [hchild] at h
            obtain rfl := Except.ok.inj h
            exact ⟨_, last, above, hinto, rfl, by
              simp [FileTree.stands?, FileTree.get?_append, habove, FileTree.get?, hchild]⟩

theorem readText_eq_ok_iff {text : String} :
    d.readText p = .ok text ↔
      ∃ names, d.locate p = .ok names ∧ d.tree.stands? names = some (.file (.text text)) := by
  rw [readText, lookup]
  cases d.locate p with
  | error fault => simp [Except.bind]
  | ok names =>
    simp only [FileTree.stands?, Except.bind, Except.ok.injEq, exists_eq_left']
    cases d.tree.get? names with
    | none => simp
    | some t =>
      cases t with
      | dir entries => simp
      | file content => cases content <;> simp

end Place

/-! ### Writing -/

/-- After is before with the text in the file, and nothing else is changed. -/
structure OnlyWrites (d after : Disk) (p : Path) (text : String) : Prop where
  current : after.current = d.current
  home : after.home = d.home
  configuration : after.configuration = d.configuration
  reads : after.readText p = .ok text
  elsewhere : ∃ place, after.locate p = .ok place ∧
    ∀ names, names ≠ place → after.tree.stands? names = d.tree.stands? names

/-- **Writing a file** puts the text where its path leads, and changes nothing else. -/
theorem onlyWrites_of_writeText {d after : Disk} {p : Path} {text : String}
    (h : d.writeText p text = .ok after) : d.OnlyWrites after p text := by
  obtain ⟨names, htarget, rfl⟩ := map_eq_ok_iff.1 h
  obtain ⟨before, last, above, hinto, rfl, hnotDir⟩ := exists_of_target htarget
  have hput := FileTree.stands?_put hinto.directory hnotDir (.text text)
  -- only what stands where in the new tree matters from here on
  generalize d.tree.put (above ++ [last]) (.file (.text text)) = tree at hput
  have hplace : tree.stands? (above ++ [last]) = some (.file (.text text)) := by
    rw [hput, if_pos rfl]
  have hdir : ∀ names, d.tree.stands? names = some .directory →
      tree.stands? names = some .directory := by
    intro names hnames
    have hne : names ≠ above ++ [last] := fun heq => hnotDir (heq ▸ hnames)
    rw [hput, if_neg hne, hnames]
  have hthere : ∀ names, (d.tree.stands? names).isSome = true →
      (tree.stands? names).isSome = true := by
    intro names hnames
    rw [hput]
    split
    · rfl
    · exact hnames
  have hafter : LeadsInto { d with tree } p before last above :=
    ⟨hinto.nonempty, hinto.pieces, hinto.isName, follow_of_kept hdir hthere hinto.follow,
      hdir above hinto.directory⟩
  have hlocate := hafter.locate (by rw [hplace]; rfl)
  exact ⟨rfl, rfl, rfl, readText_eq_ok_iff.2 ⟨_, hlocate, hplace⟩, _, hlocate,
    fun names hne => by rw [hput, if_neg hne]⟩

end Disk
end DependencyUse
