/-
# Sets of names

A set of names is the list of its names in increasing order, each once.  Names
compare by their characters, which for the bytes of UTF-8 is the same order.

| operation | what it does to the list |
| --- | --- |
| `insert` | one pass; a name that is there stays as it is |
| `ofList` | inserts one after the other |
| `below` | the names that start with a given text, found by one scan |

The names with a common beginning stand together, and first of all that beginning
itself, so the scan may start at the first name not below it and stop at the first
name without it.
-/

namespace DependencyUse

/-- Names in increasing order, each once. -/
structure NameSet where
  toList : List String
  strict : toList.Pairwise (· < ·)

namespace NameSet

/-- Puts a name at its place in an increasing list, once. -/
def place (name : String) : List String → List String
  | [] => [name]
  | x :: xs =>
    if name < x then name :: x :: xs
    else if x < name then x :: place name xs
    else x :: xs

/-- **Placing adds the name and nothing else.** -/
theorem mem_place {name y : String} {xs : List String} :
    y ∈ place name xs ↔ y = name ∨ y ∈ xs := by
  induction xs with
  | nil => simp [place]
  | cons x xs ih =>
    rw [place]
    split
    · simp
    · split
      · simp only [List.mem_cons, ih]
        constructor
        · rintro (h | h | h)
          · exact .inr (.inl h)
          · exact .inl h
          · exact .inr (.inr h)
        · rintro (h | h | h)
          · exact .inr (.inl h)
          · exact .inl h
          · exact .inr (.inr h)
      · rename_i h₁ h₂
        have : name = x := String.le_antisymm (String.not_lt.1 h₂) (String.not_lt.1 h₁)
        subst this
        simp

/-- **Placing keeps the order.** -/
theorem pairwise_place (name : String) {xs : List String} (h : xs.Pairwise (· < ·)) :
    (place name xs).Pairwise (· < ·) := by
  induction xs with
  | nil => simp [place]
  | cons x xs ih =>
    rw [List.pairwise_cons] at h
    rw [place]
    split
    · rename_i hlt
      refine List.pairwise_cons.2 ⟨fun y hy => ?_, List.pairwise_cons.2 h⟩
      rcases List.mem_cons.1 hy with rfl | hy
      · exact hlt
      · exact String.lt_trans hlt (h.1 y hy)
    · split
      · rename_i hlt
        refine List.pairwise_cons.2 ⟨fun y hy => ?_, ih h.2⟩
        rcases mem_place.1 hy with rfl | hy
        · exact hlt
        · exact h.1 y hy
      · exact List.pairwise_cons.2 h

/-- No names. -/
def empty : NameSet := ⟨[], List.Pairwise.nil⟩

instance : Inhabited NameSet := ⟨empty⟩

instance : EmptyCollection NameSet := ⟨empty⟩

/-- Adds a name. -/
def insert (s : NameSet) (name : String) : NameSet :=
  ⟨place name s.toList, pairwise_place name s.strict⟩

/-- The names of a list. -/
def ofList (names : List String) : NameSet :=
  names.foldl insert empty

/-- Adds the names of a list. -/
def insertAll (s : NameSet) (names : List String) : NameSet :=
  names.foldl insert s

/-- The name is in the set. -/
def contains (s : NameSet) (name : String) : Bool :=
  s.toList.contains name

/-- The names of `s` that are not in `t`. -/
def diff (s t : NameSet) : NameSet :=
  ⟨s.toList.filter fun name => !t.contains name, s.strict.filter _⟩

/-- The names of `s` that are in `t`. -/
def inter (s t : NameSet) : NameSet :=
  ⟨s.toList.filter fun name => t.contains name, s.strict.filter _⟩

/-- No name is in the set. -/
def isEmpty (s : NameSet) : Bool :=
  s.toList.isEmpty

instance : DecidableEq NameSet := fun s t =>
  if h : s.toList = t.toList then
    .isTrue (by cases s; cases t; cases h; rfl)
  else
    .isFalse (by rintro rfl; exact h rfl)

/-- The names that start with `head`: those from the first one not below `head` up to
the first one that does not start with it. -/
def below (s : NameSet) (head : String) : List String :=
  (s.toList.dropWhile fun name => name < head).takeWhile fun name =>
    head.toList.isPrefixOf name.toList

end NameSet
end DependencyUse
