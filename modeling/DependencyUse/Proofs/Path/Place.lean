/-
# The place that a path names

Taken literally, steps lead from a directory to a place: a name goes down, `..` goes up, and
above the root there is nothing (`placeFrom?`).  What steps do to any directory is said by two
things that hang on the steps alone:

| of some steps | is |
| --- | --- |
| `climb` | how many levels they go above their start |
| `namesLeft` | the names that no later `..` takes back |

From a directory with room for the climb they lead up by as many levels, and down by the names
that are left (`placeFrom?_eq`).  A normal form keeps the names.  Of the climb it keeps only
whether it is odd, since a `..` that stays is taken back by the next one (`reduce_eq`).

| normal form of a path | names the same place |
| --- | --- |
| from the root, if nothing climbs above it | yes |
| from elsewhere, if it climbs one level at most | yes |
| from elsewhere, if it climbs further | no |
-/

import DependencyUse.Proofs.Path.Below

namespace DependencyUse
namespace Path

/-- The directory to which some steps lead from another one, both by the names below the root.
None, if a step goes above the root. -/
def placeFrom? (dir : List String) : List Step → Option (List String)
  | [] => some dir
  | .root :: steps => placeFrom? [] steps
  | .here :: steps => placeFrom? dir steps
  | .up :: steps => if dir = [] then none else placeFrom? dir.dropLast steps
  | .name text :: steps => placeFrom? (dir ++ [text]) steps

/-- The place that a path names, seen from the root. -/
def place? (p : Path) : Option (List String) :=
  placeFrom? [] p.steps

/-- How many levels above their start some steps go. -/
def climb : List Step → Nat
  | [] | .root :: _ => 0
  | .here :: steps => climb steps
  | .up :: steps => climb steps + 1
  | .name _ :: steps => climb steps - 1

/-- The names that no later step takes back. -/
def namesLeft : List Step → List String
  | [] => []
  | .name text :: steps => if climb steps = 0 then text :: namesLeft steps else namesLeft steps
  | _ :: steps => namesLeft steps

/-- What is below the start, after steps from the directory `dir` below it. -/
def landing (dir : List String) (steps : List Step) : List String :=
  dir.take (dir.length - climb steps) ++ namesLeft steps

theorem landing_nil (dir : List String) : landing dir [] = dir := by
  simp [landing, climb, namesLeft]

theorem landing_here (dir : List String) (steps : List Step) :
    landing dir (.here :: steps) = landing dir steps := rfl

theorem landing_up (dir : List String) (steps : List Step) :
    landing dir (.up :: steps) = landing dir.dropLast steps := by
  have hlevels : min (dir.length - 1 - climb steps) (dir.length - 1)
      = dir.length - (climb steps + 1) := by omega
  show dir.take (dir.length - (climb steps + 1)) ++ namesLeft steps = _
  rw [landing, List.length_dropLast, List.dropLast_eq_take, List.take_take, hlevels]

theorem landing_name (dir : List String) (text : String) (steps : List Step) :
    landing dir (.name text :: steps) = landing (dir ++ [text]) steps := by
  rw [landing, landing, climb, namesLeft, List.length_append, List.length_singleton]
  by_cases hkept : climb steps = 0
  · rw [if_pos hkept, hkept, Nat.zero_sub, Nat.sub_zero, Nat.sub_zero, List.take_length,
      List.take_of_length_le (by simp), List.append_assoc]
    rfl
  · have hlevels : dir.length + 1 - climb steps = dir.length - (climb steps - 1) := by omega
    rw [if_neg hkept, hlevels, List.take_append_of_le_length (by omega)]

/-- **Where steps lead from a directory.**  There is a place exactly if the directory is deep
enough, and then it is reached by the climb and the names that are left. -/
theorem placeFrom?_eq {steps : List Step} (hroot : .root ∉ steps) (dir : List String) :
    placeFrom? dir steps = if climb steps ≤ dir.length then some (landing dir steps) else none := by
  induction steps generalizing dir with
  | nil => rw [landing_nil]; rfl
  | cons s steps ih =>
    rw [List.mem_cons, not_or] at hroot
    obtain ⟨hs, hrest⟩ := hroot
    cases s with
    | root => exact absurd rfl hs
    | here => rw [placeFrom?, ih hrest, landing_here, climb]
    | up =>
      rw [placeFrom?, landing_up, climb]
      cases dir with
      | nil => simp
      | cons first dir =>
        rw [if_neg (List.cons_ne_nil first dir), ih hrest, List.length_dropLast, List.length_cons]
        simp
    | name text =>
      have hroom : climb steps ≤ dir.length + 1 ↔ climb steps - 1 ≤ dir.length := by omega
      rw [placeFrom?, ih hrest, landing_name, climb, List.length_append, List.length_singleton]
      simp only [hroom]

theorem placeFrom?_eq_some_iff {steps : List Step} (hroot : .root ∉ steps)
    {dir place : List String} :
    placeFrom? dir steps = some place ↔ climb steps ≤ dir.length ∧ landing dir steps = place := by
  rw [placeFrom?_eq hroot]
  simp

theorem placeFrom?_append (dir : List String) (steps more : List Step) :
    placeFrom? dir (steps ++ more) = (placeFrom? dir steps).bind fun dir => placeFrom? dir more := by
  induction steps generalizing dir with
  | nil => rfl
  | cons s steps ih =>
    cases s with
    | root => exact ih []
    | here => exact ih dir
    | up =>
      rw [List.cons_append, placeFrom?, placeFrom?]
      split
      · rfl
      · exact ih _
    | name text => exact ih _

/-! ### What is left of the steps -/

/-- A `..` if the number of levels is odd. -/
def upIfOdd (levels : Nat) : List Step :=
  if levels % 2 = 1 then [.up] else []

/-- The steps of some names. -/
def nameSteps (texts : List String) : List Step :=
  texts.map .name

theorem nameSteps_inj {texts others : List String} :
    nameSteps texts = nameSteps others ↔ texts = others :=
  List.map_inj_right fun _ _ h => Step.name.inj h

/-- One more level above the start turns a `..` on or off. -/
theorem advance_up_odd {front : List Step} (hfront : front = [] ∨ front = [.root])
    (levels : Nat) : advance (front ++ upIfOdd levels) .up = front ++ upIfOdd (levels + 1) := by
  rcases Nat.mod_two_eq_zero_or_one levels with heven | hodd
  · have hnext : (levels + 1) % 2 = 1 := by omega
    rw [upIfOdd, upIfOdd, if_neg (by omega), if_pos hnext, List.append_nil]
    exact if_pos hfront
  · have hnext : (levels + 1) % 2 ≠ 1 := by omega
    have hback : ¬ (front ++ [.up] = [] ∨ front ++ [Step.up] = [.root]) := by
      rcases hfront with rfl | rfl <;> decide
    rw [upIfOdd, upIfOdd, if_pos hodd, if_neg hnext, List.append_nil]
    show (if _ then _ else (front ++ [Step.up]).dropLast) = front
    rw [if_neg hback, List.dropLast_concat]

/-- A `..` after a name takes the name back. -/
theorem advance_up_names (before : List Step) {dir : List String} (hdir : dir ≠ []) :
    advance (before ++ nameSteps dir) .up = before ++ nameSteps dir.dropLast := by
  have hne : nameSteps dir ≠ [] := by simpa [nameSteps] using hdir
  have hback : ¬ (before ++ nameSteps dir = [] ∨ before ++ nameSteps dir = [.root]) := by
    rintro (hnil | hroot)
    · exact hne (List.append_eq_nil_iff.1 hnil).2
    · have hlast := congrArg List.getLast? hroot
      rw [List.getLast?_append_of_ne_nil _ hne, nameSteps, List.getLast?_map] at hlast
      obtain ⟨text, -, htext⟩ := Option.map_eq_some_iff.1 hlast
      cases htext
  show (if _ then _ else (before ++ nameSteps dir).dropLast) = _
  rw [if_neg hback, List.dropLast_append_of_ne_nil hne, nameSteps, nameSteps, List.map_dropLast]

/-- **What steps make of a normal form.**  Levels above the start come and go in pairs. -/
theorem foldl_advance_eq {front : List Step} (hfront : front = [] ∨ front = [.root])
    {steps : List Step} (hroot : .root ∉ steps) (levels : Nat) (dir : List String) :
    steps.foldl advance (front ++ upIfOdd levels ++ nameSteps dir)
      = front ++ upIfOdd (levels + (climb steps - dir.length)) ++ nameSteps (landing dir steps) := by
  induction steps generalizing levels dir with
  | nil => rw [landing_nil, climb, Nat.zero_sub]; rfl
  | cons s steps ih =>
    rw [List.mem_cons, not_or] at hroot
    obtain ⟨hs, hrest⟩ := hroot
    rw [List.foldl_cons]
    cases s with
    | root => exact absurd rfl hs
    | here => exact ih hrest levels dir
    | up =>
      by_cases hdir : dir = []
      · subst hdir
        have hlevels : levels + 1 + (climb steps - ([] : List String).length)
            = levels + (climb steps + 1 - ([] : List String).length) := by
          simp only [List.length_nil]
          omega
        have hnext : advance (front ++ upIfOdd levels ++ nameSteps []) .up
            = front ++ upIfOdd (levels + 1) ++ nameSteps [] := by
          simpa [nameSteps] using advance_up_odd hfront levels
        rw [hnext, ih hrest, landing_up, climb, hlevels, List.dropLast_nil]
      · have hlength : dir.length ≠ 0 := by simpa using hdir
        have hlevels : climb steps - dir.dropLast.length = climb steps + 1 - dir.length := by
          rw [List.length_dropLast]
          omega
        rw [advance_up_names _ hdir, ih hrest, landing_up, climb, hlevels]
    | name text =>
      have hlevels : climb steps - (dir ++ [text]).length = climb steps - 1 - dir.length := by
        rw [List.length_append, List.length_singleton]
        omega
      have hnext : advance (front ++ upIfOdd levels ++ nameSteps dir) (.name text)
          = front ++ upIfOdd levels ++ nameSteps (dir ++ [text]) := by
        simp [advance, nameSteps]
      rw [hnext, ih hrest, landing_name, climb, hlevels]

/-- **The normal form of steps**, with a root before them or not: a `..` if they climb an odd
number of levels, then the names that are left. -/
theorem reduce_eq {front : List Step} (hfront : front = [] ∨ front = [.root]) {steps : List Step}
    (hroot : .root ∉ steps) :
    reduce (front ++ steps) = front ++ upIfOdd (climb steps) ++ nameSteps (namesLeft steps) := by
  have hstart : front.foldl advance [] = front ++ upIfOdd 0 ++ nameSteps [] := by
    rcases hfront with rfl | rfl <;> rfl
  rw [reduce, List.foldl_append, hstart, foldl_advance_eq hfront hroot]
  simp [landing]

/-! ### A path from a directory -/

/-- A piece after the start is read as one at the start, but for a `.`. -/
theorem step_pieceSpan (start : Nat) (piece : List Char) :
    (pieceSpan (start + 1) piece).toList.map Span.step
      = ((pieceSpan 0 piece).toList.map Span.step).filter (· ≠ .here) := by
  unfold pieceSpan
  split
  · rfl
  · split
    · rfl
    · split <;> rfl

/-- After the start, it does not matter where. -/
theorem step_spansFrom (start start' : Nat) (piece cs : List Char) :
    (spansFrom (start + 1) piece cs).map Span.step
      = (spansFrom (start' + 1) piece cs).map Span.step := by
  induction cs generalizing start start' piece with
  | nil => rw [spansFrom, spansFrom, step_pieceSpan, step_pieceSpan]
  | cons c cs ih =>
    rw [spansFrom, spansFrom]
    split
    · rw [List.map_append, List.map_append, step_pieceSpan, step_pieceSpan]
      exact congrArg _ (ih (start + 1 + piece.length) (start' + 1 + piece.length) [])
    · exact ih start start' (c :: piece)

/-- **A text after the start is read as one at the start**, but for a `.` that it begins with. -/
theorem step_spansFrom_filter (start : Nat) (piece cs : List Char) :
    (spansFrom (start + 1) piece cs).map Span.step
      = ((spansFrom 0 piece cs).map Span.step).filter (· ≠ .here) := by
  induction cs generalizing piece with
  | nil => rw [spansFrom, spansFrom, step_pieceSpan]
  | cons c cs ih =>
    rw [spansFrom, spansFrom]
    split
    · have hplain : ((spansFrom (0 + piece.length + 1) [] cs).map Span.step).filter (· ≠ .here)
          = (spansFrom (0 + piece.length + 1) [] cs).map Span.step := by
        refine List.filter_eq_self.2 fun s hs => decide_eq_true fun hhere => ?_
        obtain ⟨x, hx, rfl⟩ := List.mem_map.1 hs
        have hx := isPlain_of_mem_spansFrom (Nat.succ_pos _) hx
        rw [hhere] at hx
        exact hx
      rw [List.map_append, List.map_append, List.filter_append, step_pieceSpan,
        step_spansFrom _ (0 + piece.length), hplain]
    · exact ih (c :: piece)

theorem spans_of_isAbsolute_eq_false {p : Path} (h : p.isAbsolute = false) :
    p.spans = spansFrom 0 [] p.text.toList := by
  rw [spans]
  split
  · rename_i cs heq
    rw [isAbsolute, heq] at h
    cases h
  · rfl

/-- **The steps of a path from another one** are those of both, without a `.` between them. -/
theorem steps_join {b p : Path} (hb : b.text.toList ≠ []) (hp : p.isAbsolute = false) :
    (b.join p).steps = b.steps ++ p.steps.filter (· ≠ .here) := by
  have hread : ∀ start, (spansFrom (start + 1) [] p.text.toList).map Span.step
      = p.steps.filter (· ≠ .here) := by
    intro start
    rw [step_spansFrom_filter, steps, spans_of_isAbsolute_eq_false hp]
  have htext := toList_join_of_relative b hp
  rcases opening_cases b with ⟨hempty, -⟩ | ⟨before, hbefore, hopening⟩ | ⟨-, hopening⟩
  · exact absurd hempty hb
  · rw [hopening, List.append_assoc, List.singleton_append] at htext
    by_cases hroot : before = []
    · -- the slash is the root
      subst hroot
      rw [List.nil_append] at htext hbefore
      rw [steps, steps, spans, spans, htext, hbefore]
      exact congrArg (Step.root :: ·) (hread 0)
    · -- the slash at the end is read as nothing
      have hstem : (⟨String.ofList before⟩ : Path).text.toList = before := String.toList_ofList
      have hbefore : b.text.toList = (⟨String.ofList before⟩ : Path).text.toList ++ '/' :: [] := by
        rw [hstem, hbefore]
      have htext : (b.join p).text.toList
          = (⟨String.ofList before⟩ : Path).text.toList ++ '/' :: p.text.toList := by
        rw [hstem, htext]
      have hspans := spans_append_slash (hstem.symm ▸ hroot) hbefore
      have hjoin := spans_append_slash (hstem.symm ▸ hroot) htext
      have hnone : ∀ start, spansFrom start [] [] = [] := fun _ => rfl
      rw [hnone, List.append_nil] at hspans
      rw [steps, hjoin, steps, hspans, List.map_append, hread]
  · rw [hopening, List.append_assoc, List.singleton_append] at htext
    rw [steps, spans_append_slash hb htext, List.map_append, hread]
    rfl

/-- A path has a root exactly if its text begins with a slash. -/
theorem root_mem_steps_iff {p : Path} : .root ∈ p.steps ↔ p.isAbsolute = true := by
  constructor
  · intro hroot
    by_contra habsolute
    rw [Bool.not_eq_true] at habsolute
    rw [steps, spans_of_isAbsolute_eq_false habsolute] at hroot
    obtain ⟨x, hx, hstep⟩ := List.mem_map.1 hroot
    obtain ⟨from_, found, -, hslash, hspan⟩ := exists_pieceSpan_of_mem_spansFrom List.not_mem_nil hx
    rcases isPlain_of_pieceSpan hslash hspan with hplain | ⟨-, hhere⟩
    · rw [hstep] at hplain
      exact hplain
    · rw [hstep] at hhere
      cases hhere
  · intro habsolute
    rw [isAbsolute, beq_iff_eq] at habsolute
    obtain ⟨cs, htext⟩ := List.head?_eq_some_iff.1 habsolute
    rw [steps, spans, htext]
    exact List.mem_cons_self

theorem root_notMem_steps {p : Path} (h : p.isAbsolute = false) : .root ∉ p.steps := by
  rw [root_mem_steps_iff, h]
  nofun

theorem text_ne_nil_of_isAbsolute {p : Path} (h : p.isAbsolute = true) : p.text.toList ≠ [] := by
  intro hempty
  rw [isAbsolute, hempty] at h
  cases h

/-- The steps of an absolute path are a root and others. -/
theorem exists_steps_of_isAbsolute {p : Path} (h : p.isAbsolute = true) :
    ∃ steps, p.steps = .root :: steps ∧ .root ∉ steps := by
  obtain ⟨plain, hplain, hsteps | hsteps | hsteps⟩ := steps_cases p
  · exact absurd (root_mem_steps_iff.2 h) (hsteps ▸ fun hroot => hplain .root hroot)
  · exact ⟨plain, hsteps, fun hroot => hplain .root hroot⟩
  · have hmem := root_mem_steps_iff.2 h
    rw [hsteps, List.mem_cons] at hmem
    exact absurd (hmem.resolve_left nofun) fun hroot => hplain .root hroot

/-- A `.` leads nowhere else. -/
theorem placeFrom?_filter (steps : List Step) (dir : List String) :
    placeFrom? dir (steps.filter (· ≠ .here)) = placeFrom? dir steps := by
  induction steps generalizing dir with
  | nil => rfl
  | cons s steps ih =>
    cases s with
    | here => exact ih dir
    | root => exact ih []
    | name text => exact ih (dir ++ [text])
    | up =>
      show (if dir = [] then none else _) = if dir = [] then none else _
      rw [ih]

theorem climb_nameSteps (texts : List String) : climb (nameSteps texts) = 0 := by
  induction texts with
  | nil => rfl
  | cons text texts ih =>
    show climb (nameSteps texts) - 1 = 0
    rw [ih]

theorem namesLeft_nameSteps (texts : List String) : namesLeft (nameSteps texts) = texts := by
  induction texts with
  | nil => rfl
  | cons text texts ih =>
    show (if climb (nameSteps texts) = 0 then text :: namesLeft (nameSteps texts) else _) = _
    rw [if_pos (climb_nameSteps texts), ih]

/-- What a normal form does to a directory. -/
theorem landing_normal (dir : List String) (levels : Nat) (texts : List String) :
    climb (upIfOdd levels ++ nameSteps texts) = levels % 2 ∧
      landing dir (upIfOdd levels ++ nameSteps texts)
        = dir.take (dir.length - levels % 2) ++ texts := by
  have hclimb : climb (upIfOdd levels ++ nameSteps texts) = levels % 2 := by
    rw [upIfOdd]
    split
    · rename_i hodd
      rw [hodd, List.singleton_append, climb, climb_nameSteps]
    · rw [List.nil_append, climb_nameSteps]
      omega
  have hleft : namesLeft (upIfOdd levels ++ nameSteps texts) = texts := by
    rw [upIfOdd]
    split
    · exact namesLeft_nameSteps texts
    · exact namesLeft_nameSteps texts
  exact ⟨hclimb, by rw [landing, hclimb, hleft]⟩

/-- **The normal form of a path without a root.** -/
theorem steps_normalize_of_relative {p : Path} (h : p.isAbsolute = false) :
    p.normalize.steps = upIfOdd (climb p.steps) ++ nameSteps (namesLeft p.steps) := by
  rw [steps_normalize]
  exact reduce_eq (.inl rfl) (root_notMem_steps h)

theorem isAbsolute_normalize_of_relative {p : Path} (h : p.isAbsolute = false) :
    p.normalize.isAbsolute = false := by
  rw [← Bool.not_eq_true, ← root_mem_steps_iff, steps_normalize_of_relative h, upIfOdd]
  split <;> simp [nameSteps]

/-- Normal forms are equal exactly if the same steps are left. -/
theorem normalize_eq_iff {p q : Path} : p.normalize = q.normalize ↔ reduce p.steps = reduce q.steps := by
  refine ⟨fun h => ?_, fun h => congrArg ofSteps h⟩
  rw [← steps_normalize, ← steps_normalize, h]

/-- The landing is the same without pairs of levels exactly if there are none. -/
theorem take_levels_eq_iff {dir : List String} {levels : Nat} (hroom : levels ≤ dir.length) :
    dir.take (dir.length - levels % 2) = dir.take (dir.length - levels) ↔ levels ≤ 1 := by
  constructor
  · intro h
    have hlength := congrArg List.length h
    rw [List.length_take, List.length_take] at hlength
    omega
  · intro h
    rw [Nat.mod_eq_of_lt (by omega)]

/-- **The place of a path from a directory** is where the path leads from the place of the
directory. -/
theorem place?_join {b p : Path} (hb : b.isAbsolute = true) (hp : p.isAbsolute = false) :
    (b.join p).place? = b.place?.bind fun dir => placeFrom? dir p.steps := by
  rw [place?, place?, steps_join (text_ne_nil_of_isAbsolute hb) hp, placeFrom?_append]
  simp only [placeFrom?_filter]

theorem isAbsolute_join {b : Path} (hb : b.isAbsolute = true) (p : Path) :
    (b.join p).isAbsolute = true := by
  cases hp : p.isAbsolute with
  | true => rw [join, if_pos hp, hp]
  | false =>
    rw [← root_mem_steps_iff, steps_join (text_ne_nil_of_isAbsolute hb) hp]
    exact List.mem_append_left _ (root_mem_steps_iff.2 hb)

/-- **From the root, a normal form names the place of its path.** -/
theorem reduce_of_place? {p : Path} (hp : p.isAbsolute = true) {place : List String}
    (h : p.place? = some place) : reduce p.steps = .root :: nameSteps place := by
  obtain ⟨steps, hsteps, hroot⟩ := exists_steps_of_isAbsolute hp
  rw [place?, hsteps, placeFrom?] at h
  obtain ⟨hclimb, rfl⟩ := (placeFrom?_eq_some_iff hroot).1 h
  have hzero : climb steps = 0 := Nat.le_zero.1 hclimb
  have hreduce := reduce_eq (.inr rfl) hroot
  rw [List.singleton_append] at hreduce
  rw [hsteps, hreduce, hzero]
  simp [landing, upIfOdd]

/-- **When a path may be normalised before it is joined.**  From an absolute directory, along a
path that does not climb above the root, the normal form names the place itself.  Normalising
the path first leads to the same normal form exactly if the path climbs one level above its
start at most. -/
theorem normalize_join_normalize_iff {b p : Path} (hb : b.isAbsolute = true)
    (hp : p.isAbsolute = false) {place : List String} (h : (b.join p).place? = some place) :
    (b.join p).normalize = ofSteps (.root :: nameSteps place) ∧
      ((b.join p.normalize).normalize = (b.join p).normalize ↔ climb p.steps ≤ 1) := by
  have hjoin := reduce_of_place? (isAbsolute_join hb _) h
  refine ⟨congrArg ofSteps hjoin, ?_⟩
  obtain ⟨dir, hdir, hplace⟩ := Option.bind_eq_some_iff.1 ((place?_join hb hp).symm.trans h)
  obtain ⟨hroom, rfl⟩ := (placeFrom?_eq_some_iff (root_notMem_steps hp)).1 hplace
  -- of the levels that the path climbs, its normal form climbs the odd one
  have hq := isAbsolute_normalize_of_relative hp
  obtain ⟨hclimb, hlanding⟩ := landing_normal dir (climb p.steps) (namesLeft p.steps)
  rw [← steps_normalize_of_relative hp] at hclimb hlanding
  have hnormal : (b.join p.normalize).place? = some (landing dir p.normalize.steps) := by
    rw [place?_join hb hq, hdir]
    refine (placeFrom?_eq_some_iff (root_notMem_steps hq)).2 ⟨?_, rfl⟩
    have := Nat.mod_le (climb p.steps) 2
    omega
  rw [normalize_eq_iff, hjoin, reduce_of_place? (isAbsolute_join hb _) hnormal, hlanding,
    List.cons_inj_right, nameSteps_inj, landing, List.append_left_inj]
  exact take_levels_eq_iff hroom

/-- The hypotheses are satisfiable: one level up from `/work/src`, and down again. -/
theorem normalize_join_normalize_iff_sibling :
    let b : Path := ⟨"/work/./src"⟩
    let p : Path := ⟨"x/../../lib/./a.ts"⟩
    b.isAbsolute = true ∧ p.isAbsolute = false ∧
      (b.join p).place? = some ["work", "lib", "a.ts"] ∧
      ((b.join p).normalize = ofSteps (.root :: nameSteps ["work", "lib", "a.ts"]) ∧
        ((b.join p.normalize).normalize = (b.join p).normalize ↔ climb p.steps ≤ 1)) := by
  intro b p
  have hb : b.isAbsolute = true := by decide
  have hp : p.isAbsolute = false := by decide
  have h : (b.join p).place? = some ["work", "lib", "a.ts"] := by decide
  exact ⟨hb, hp, h, normalize_join_normalize_iff hb hp h⟩

/-- **Two levels up are lost.**  From `/a/b/c`, `../../x` is `/a/x`.  Its normal form is `x`, which
is `/a/b/c/x` from there. -/
theorem normalize_join_normalize_ne_of_two_levels :
    let b : Path := ⟨"/a/b/c"⟩
    let p : Path := ⟨"../../x"⟩
    b.isAbsolute = true ∧ p.isAbsolute = false ∧ (b.join p).place? = some ["a", "x"] ∧
      p.normalize = ⟨"x"⟩ ∧ (b.join p).normalize = ⟨"/a/x"⟩ ∧
      (b.join p.normalize).normalize = ⟨"/a/b/c/x"⟩ := by
  decide

end Path
end DependencyUse
