/-
# What a search finds

The walk passes over an entry with all that is in it.  What it finds is said here without a
walk: a file is found if it is a source file, and nothing on the way to it is passed over.

| on the way from the root to the file | must not |
| --- | --- |
| a directory between the two, or the file | be matched by a pattern |
| a directory between the two | have the name of an ignored directory |
| the root | (nothing is asked of it) |

`mem_sources_meet` follows the tree and `enters_iff` the names that lead to a file.  The paths
that are found differ in their steps (`pairwise_sources_meet`), so their order is strict.

Both are about a walk in which some entries cannot be read.  The errors that it meets are
warnings, so they are all recovered (`recovers_meet`): a search never fails (`search_eq`), and
where every entry can be read it gives what is found (`search_readable`).
-/

import DependencyUse.Discovery
import DependencyUse.Proofs.FileTree
import DependencyUse.Proofs.Order
import DependencyUse.Proofs.Path.Below

namespace DependencyUse

/-- A pattern matches what some names lead to: the names with slashes between them, or the
last one. -/
def Glob.Pattern.Matches (pattern : Glob.Pattern) (names : List String) : Prop :=
  pattern.accepts ("/".intercalate names) = true ∨
    ∃ name ∈ names.getLast?, pattern.accepts name = true

/-- The names lead from a root to a file that is to be analysed; `Matched` says which names
are matched by a pattern. -/
structure IsAnalyzable (Matched : List String → Prop) (root : Path) (tree : FileTree)
    (names : List String) : Prop where
  file : ∃ content, tree.get? names = some (.file content)
  source : (root.below names).isSource = true
  /-- neither the file nor a directory on the way to it -/
  unmatched : ∀ front, front ≠ [] → front <+: names → ¬ Matched front
  unignored : ∀ name ∈ names.dropLast, name ∉ ignoredDirectories

namespace Discovery

/-- Some pattern of the search matches what some names lead to. -/
def Matches (s : Discovery) (names : List String) : Prop :=
  ∃ pattern ∈ s.patterns, pattern.Matches names

/-- The walk of a tree enters all that it comes to along some names. -/
def Enters (s : Discovery) : Path → FileTree → List String → Prop
  | _, _, [] => True
  | path, tree, name :: names => ∃ child, tree.child? name = some child ∧
      s.isPruned (path.join ⟨name⟩) name child = false ∧ s.Enters (path.join ⟨name⟩) child names

/-- Nothing at a path or on the way along some names below it is unreadable. -/
def IsReadable (fault? : Path → Option EntryFault) (path : Path) (names : List String) : Prop :=
  ∀ front, front <+: names → fault? (path.below front) = none

theorem isReadable_nil {fault? : Path → Option EntryFault} {path : Path} :
    IsReadable fault? path [] ↔ fault? path = none := by
  simp [IsReadable, Path.below]

theorem isReadable_cons {fault? : Path → Option EntryFault} {path : Path} {name : String}
    {names : List String} :
    IsReadable fault? path (name :: names) ↔
      fault? path = none ∧ IsReadable fault? (path.join ⟨name⟩) names := by
  constructor
  · intro h
    exact ⟨h [] List.nil_prefix, fun front hfront =>
      h (name :: front) (List.cons_prefix_cons.2 ⟨rfl, hfront⟩)⟩
  · rintro ⟨hhere, hbelow⟩ front hfront
    rcases List.prefix_cons_iff.1 hfront with rfl | ⟨rest, rfl, hrest⟩
    · exact hhere
    · exact hbelow rest hrest

/-- The source files of what some walk met. -/
def sources (met : List (Except Error Path)) : List Path :=
  (met.filterMap Except.toOption).filter Path.isSource

theorem sources_append (met more : List (Except Error Path)) :
    sources (met ++ more) = sources met ++ sources more := by
  simp [sources]

mutual

/-- **Where every entry can be read**, the walk meets the source files that it finds. -/
theorem sources_meet_readable (s : Discovery) (path : Path) (tree : FileTree) :
    sources (s.meet (fun _ => none) path tree) = s.walk path tree := by
  cases tree with
  | file content =>
    rw [meet, walk, sources]
    cases hsource : path.isSource <;> simp [Except.toOption, hsource]
  | dir entries =>
    rw [meet, walk]
    exact sources_meetEntries_readable s path entries

theorem sources_meetEntries_readable (s : Discovery) (path : Path)
    (entries : List (String × FileTree)) :
    sources (s.meetEntries (fun _ => none) path entries) = s.walkEntries path entries := by
  cases entries with
  | nil => rfl
  | cons e entries =>
    obtain ⟨name, tree⟩ := e
    rw [meetEntries, walkEntries, sources_append, sources_meetEntries_readable s path entries]
    split
    · rfl
    · rw [sources_meet_readable s _ tree]

end

section Unreadable

variable {s : Discovery} {fault? : Path → Option EntryFault}

/-- A file that can be read is kept if it is a source file. -/
theorem mem_sources_meet_file {path f : Path} {content : Content} :
    f ∈ sources (s.meet fault? path (.file content)) ↔
      fault? path = none ∧ f = path ∧ f.isSource = true := by
  rw [meet, sources]
  cases fault? path <;> simp [Except.toOption]

/-- A directory that can be read gives what the entries that are not passed over give. -/
theorem sources_meet_dir {path : Path} (h : fault? path = none)
    (entries : List (String × FileTree)) :
    sources (s.meet fault? path (.dir entries)) =
      (entries.filter fun e => !s.isPruned (path.join ⟨e.1⟩) e.1 e.2).flatMap
        fun e => sources (s.meet fault? (path.join ⟨e.1⟩) e.2) := by
  rw [meet, h]
  show sources (s.meetEntries fault? path entries) = _
  induction entries with
  | nil => rfl
  | cons e entries ih =>
    obtain ⟨name, tree⟩ := e
    rw [meetEntries, sources_append, ih]
    cases hpruned : s.isPruned (path.join ⟨name⟩) name tree <;> simp [hpruned, sources]

/-- A directory that cannot be read gives nothing. -/
theorem sources_meet_dir_unreadable {path : Path} {fault : EntryFault}
    (h : fault? path = some fault) (entries : List (String × FileTree)) :
    sources (s.meet fault? path (.dir entries)) = [] := by
  rw [meet, h]
  rfl

/-- **What the walk keeps** are the source files that it enters all the way, with nothing
unreadable on the way. -/
theorem mem_sources_meet {tree : FileTree} (h : tree.IsProper) {path f : Path} :
    f ∈ sources (s.meet fault? path tree) ↔
      ∃ names content, tree.get? names = some (.file content) ∧ s.Enters path tree names ∧
        IsReadable fault? path names ∧ f = path.below names ∧ f.isSource = true := by
  induction h generalizing path with
  | file content =>
    rw [mem_sources_meet_file]
    constructor
    · rintro ⟨hread, rfl, hsource⟩
      exact ⟨[], content, rfl, trivial, isReadable_nil.2 hread, rfl, hsource⟩
    · rintro ⟨names, _, hget, -, hread, rfl, hsource⟩
      obtain ⟨rfl, -⟩ := FileTree.get?_file_eq_some_iff.1 hget
      exact ⟨isReadable_nil.1 hread, rfl, hsource⟩
  | @dir entries distinct named trees ih =>
    constructor
    · intro hf
      cases hread : fault? path with
      | some fault => rw [sources_meet_dir_unreadable hread] at hf; cases hf
      | none =>
        simp only [sources_meet_dir hread, List.mem_flatMap, List.mem_filter,
          Bool.not_eq_true'] at hf
        obtain ⟨⟨name, child⟩, ⟨hmem, hpruned⟩, hf⟩ := hf
        obtain ⟨names, content, hget, henters, hbelow, hf, hsource⟩ := (ih _ hmem).1 hf
        have hchild := (FileTree.child?_eq_some_iff distinct).2 hmem
        exact ⟨name :: names, content, FileTree.get?_cons_eq_some_iff.2 ⟨child, hchild, hget⟩,
          ⟨child, hchild, hpruned, henters⟩, isReadable_cons.2 ⟨hread, hbelow⟩, hf, hsource⟩
    · rintro ⟨names, content, hget, henters, hread, hf, hsource⟩
      cases names with
      | nil => cases hget
      | cons name names =>
        obtain ⟨child, hchild, hpruned, henters⟩ := henters
        obtain ⟨_, hsame, hget⟩ := FileTree.get?_cons_eq_some_iff.1 hget
        cases Option.some.inj (hchild.symm.trans hsame)
        obtain ⟨hhere, hbelow⟩ := isReadable_cons.1 hread
        have hmem := (FileTree.child?_eq_some_iff distinct).1 hchild
        simp only [sources_meet_dir hhere, List.mem_flatMap, List.mem_filter, Bool.not_eq_true']
        exact ⟨(name, child), ⟨hmem, hpruned⟩,
          (ih _ hmem).2 ⟨names, content, hget, henters, hbelow, hf, hsource⟩⟩

/-- What the walk keeps below a path lies below it. -/
theorem exists_steps_of_mem_meet {tree : FileTree} (h : tree.IsProper) {path f : Path}
    (hf : f ∈ sources (s.meet fault? path tree)) : ∃ more, f.steps = path.steps ++ more := by
  obtain ⟨names, content, hget, -, -, rfl, -⟩ := (mem_sources_meet h).1 hf
  exact ⟨_, Path.steps_below path (h.isPlain_of_get? hget)⟩

/-- **No path is kept twice**, written in whatever way. -/
theorem pairwise_sources_meet {tree : FileTree} (h : tree.IsProper) (path : Path) :
    (sources (s.meet fault? path tree)).Pairwise fun a b => a.cmp b ≠ .eq := by
  induction h generalizing path with
  | file content =>
    rw [meet]
    split
    · exact List.Pairwise.nil
    · exact (List.pairwise_singleton _ path).filter _
  | @dir entries distinct named trees ih =>
    cases hread : fault? path with
    | some fault => rw [sources_meet_dir_unreadable hread]; exact List.Pairwise.nil
    | none =>
      have hjoin : ∀ e ∈ entries, (path.join ⟨e.1⟩).steps = path.steps ++ [.name e.1] :=
        fun e he => show (path.below [e.1]).steps = _ from
          Path.steps_below path (by simpa using named e he)
      rw [sources_meet_dir hread, List.pairwise_flatMap]
      refine ⟨fun e he => ih e (List.mem_of_mem_filter he) _, ?_⟩
      have hnames := (List.pairwise_map.1 distinct).filter fun e =>
        !s.isPruned (path.join ⟨e.1⟩) e.1 e.2
      -- two files are told apart by the names of the entries that they are found in
      refine hnames.imp_of_mem fun {e e'} he he' hne a ha b hb heq => hne ?_
      have he := List.mem_of_mem_filter he
      have he' := List.mem_of_mem_filter he'
      obtain ⟨more, hmore⟩ := exists_steps_of_mem_meet (trees e he) ha
      obtain ⟨more', hmore'⟩ := exists_steps_of_mem_meet (trees e' he') hb
      rw [Path.cmp_eq_eq_iff, hmore, hmore', hjoin e he, hjoin e' he'] at heq
      simp only [List.append_assoc, List.append_cancel_left_eq, List.singleton_append,
        List.cons.injEq, Path.Step.name.injEq] at heq
      exact heq.1

end Unreadable

/-- **Below the root, what is excluded** is what a pattern matches. -/
theorem isExcluded_below {s : Discovery} {names : List String} (hne : names ≠ [])
    (hplain : ∀ name ∈ names, (Path.Step.name name).IsPlain) :
    s.isExcluded (s.root.below names) = true ↔ s.Matches names := by
  have hname : (s.root.below names).fileName? = names.getLast? := by
    obtain ⟨front, last, rfl⟩ := (List.eq_nil_or_concat' names).resolve_left hne
    rw [Path.below_concat, Path.fileName?_join _ (hplain last (by simp)), List.getLast?_concat]
  rw [isExcluded, hname, Path.displayedFrom_below _ hplain hne]
  simp only [List.any_eq_true, Bool.or_eq_true, Option.any_eq_true]
  rfl

theorem isPruned_below {s : Discovery} {names : List String} (hne : names ≠ [])
    (hplain : ∀ name ∈ names, (Path.Step.name name).IsPlain) (name : String) (tree : FileTree) :
    s.isPruned (s.root.below names) name tree = false ↔
      ¬ s.Matches names ∧ (tree.isDir = true → name ∉ ignoredDirectories) := by
  rw [isPruned, Bool.or_eq_false_iff, ← Bool.not_eq_true (isExcluded ..),
    isExcluded_below hne hplain, and_comm]
  simp

/-- The beginnings of a list that are not empty: its head, and those that go on after it. -/
theorem forall_front_cons {P : List String → Prop} {name : String} {names : List String} :
    (∀ front, front ≠ [] → front <+: name :: names → P front) ↔
      P [name] ∧ ∀ front, front ≠ [] → front <+: names → P (name :: front) := by
  constructor
  · intro h
    refine ⟨h _ (by simp) (by simp), fun front _ hfront => ?_⟩
    exact h _ (by simp) (List.cons_prefix_cons.2 ⟨rfl, hfront⟩)
  · rintro ⟨hhead, hrest⟩ front hne hfront
    rcases List.prefix_cons_iff.1 hfront with rfl | ⟨rest, rfl, hrestFront⟩
    · exact absurd rfl hne
    · by_cases hnil : rest = []
      · exact hnil ▸ hhead
      · exact hrest rest hnil hrestFront

/-- **The walk enters all the way to a file** if no pattern matches on the way, the file
included, and no directory is ignored; `done` are the names from the root to the tree. -/
theorem enters_iff {s : Discovery} {tree : FileTree} (h : tree.IsProper) (done : List String)
    (hdone : ∀ name ∈ done, (Path.Step.name name).IsPlain) {names : List String}
    {content : Content} (hget : tree.get? names = some (.file content)) :
    s.Enters (s.root.below done) tree names ↔
      (∀ front, front ≠ [] → front <+: names → ¬ s.Matches (done ++ front)) ∧
        ∀ name ∈ names.dropLast, name ∉ ignoredDirectories := by
  induction names generalizing tree done with
  | nil => simpa [Enters] using fun front hne hnil => absurd hnil hne
  | cons name names ih =>
    obtain ⟨child, hchild, hget⟩ := FileTree.get?_cons_eq_some_iff.1 hget
    obtain ⟨hname, hproper⟩ := h.child? hchild
    have hplain : ∀ n ∈ done ++ [name], (Path.Step.name n).IsPlain := by
      simpa [or_imp, forall_and] using ⟨hdone, hname⟩
    have hstep : s.Enters (s.root.below done) tree (name :: names) ↔
        s.isPruned (s.root.below (done ++ [name])) name child = false ∧
          s.Enters (s.root.below (done ++ [name])) child names := by
      rw [Enters, hchild, Path.below_concat]
      simp
    -- only a directory has names after its own
    have hdropLast : (∀ n ∈ (name :: names).dropLast, n ∉ ignoredDirectories) ↔
        (child.isDir = true → name ∉ ignoredDirectories) ∧
          ∀ n ∈ names.dropLast, n ∉ ignoredDirectories := by
      cases names with
      | nil => cases Option.some.inj hget; simp [FileTree.isDir]
      | cons next names =>
        cases child with
        | file content => cases hget
        | dir entries => simp [FileTree.isDir]
    rw [hstep, isPruned_below (by simp) hplain, ih hproper _ hplain hget, forall_front_cons,
      hdropLast]
    simp only [List.append_assoc, List.singleton_append]
    tauto

/-- The errors that a walk meets are all recovered. -/
def Recovers (met : List (Except Error Path)) : Prop :=
  ∀ e, .error e ∈ met → e.isRecovered = true

theorem recovers_atPath (path : Path) (denied : Bool) (fault : String) :
    Recovers [.error (.atPath path denied fault)] := by
  intro e he
  cases List.mem_singleton.1 he
  cases denied <;> rfl

theorem Recovers.append {met more : List (Except Error Path)} (h : Recovers met)
    (hmore : Recovers more) : Recovers (met ++ more) :=
  fun e he => (List.mem_append.1 he).elim (h e) (hmore e)

mutual

/-- **Every error of a walk is recovered**: it is a warning. -/
theorem recovers_meet (s : Discovery) (fault? : Path → Option EntryFault) (path : Path)
    (tree : FileTree) : Recovers (s.meet fault? path tree) := by
  cases tree with
  | file content =>
    rw [meet]
    split
    · exact recovers_atPath _ _ _
    · simp [Recovers]
  | dir entries =>
    rw [meet]
    split
    · exact recovers_atPath _ _ _
    · exact recovers_meetEntries s fault? path entries

theorem recovers_meetEntries (s : Discovery) (fault? : Path → Option EntryFault) (path : Path)
    (entries : List (String × FileTree)) : Recovers (s.meetEntries fault? path entries) := by
  cases entries with
  | nil => simp [meetEntries, Recovers]
  | cons e entries =>
    obtain ⟨name, tree⟩ := e
    rw [meetEntries]
    refine Recovers.append ?_ (recovers_meetEntries s fault? path entries)
    split
    · simp [Recovers]
    · exact recovers_meet s fault? _ tree

end

theorem recovers_met (s : Discovery) (fault? : Path → Option EntryFault) (d : Disk) :
    Recovers (s.met fault? d) := by
  rw [met]
  split
  · exact recovers_meet s fault? _ _
  · exact recovers_atPath _ _ _

/-- Where all errors are recovered, what was met without one is left. -/
theorem Recovers.mapM_recover {met : List (Except Error Path)} (h : Recovers met) :
    met.mapM Error.recover = .ok (met.map Except.toOption) := by
  induction met with
  | nil => rfl
  | cons result met ih =>
    have hrest := ih fun e he => h e (List.mem_cons_of_mem _ he)
    have hfirst : Error.recover result = .ok result.toOption := by
      cases result with
      | ok path => rfl
      | error e => exact if_pos (h e List.mem_cons_self)
    rw [List.mapM_cons, hfirst, hrest]
    rfl

/-- **A search does not fail**, whatever cannot be read: it gives the source files that were
met. -/
theorem search_eq (s : Discovery) (fault? : Path → Option EntryFault) (d : Disk) :
    s.search fault? d = .ok ((sources (s.met fault? d)).mergeSort fun a b => a.cmp b != .gt) := by
  have hkept : ((s.met fault? d).map Except.toOption).filterMap id
      = (s.met fault? d).filterMap Except.toOption := by
    rw [List.filterMap_map]
    rfl
  rw [search, (recovers_met s fault? d).mapM_recover, sources, ← hkept]
  rfl

theorem sources_met {s : Discovery} {fault? : Path → Option EntryFault} {d : Disk}
    {tree : FileTree} (hroot : d.lookup s.root = .ok tree) :
    sources (s.met fault? d) = sources (s.meet fault? s.root tree) := by
  rw [met, hroot]

theorem sources_met_of_error {s : Discovery} {fault? : Path → Option EntryFault} {d : Disk}
    {fault : DiskFault} (hroot : d.lookup s.root = .error fault) :
    sources (s.met fault? d) = [] := by
  rw [met, hroot]
  rfl

theorem discover_eq_mergeSort {s : Discovery} {d : Disk} {tree : FileTree}
    (hroot : d.lookup s.root = .ok tree) :
    s.discover d = (s.walk s.root tree).mergeSort fun a b => a.cmp b != .gt := by
  rw [discover, hroot]

/-- **Where every entry can be read**, the search gives what is found. -/
theorem search_readable (s : Discovery) (d : Disk) :
    s.search (fun _ => none) d = .ok (s.discover d) := by
  rw [search_eq]
  cases hroot : d.lookup s.root with
  | ok tree => rw [sources_met hroot, sources_meet_readable, discover_eq_mergeSort hroot]
  | error fault => rw [sources_met_of_error hroot, List.mergeSort_nil, discover, hroot]

/-- **What a search gives is in strictly increasing order.** -/
theorem pairwise_search {s : Discovery} {fault? : Path → Option EntryFault} {d : Disk}
    (h : d.tree.IsProper) {files : List Path} (hfiles : s.search fault? d = .ok files) :
    files.Pairwise fun a b => a.cmp b = .lt := by
  cases (search_eq s fault? d).symm.trans hfiles
  cases hroot : d.lookup s.root with
  | ok tree =>
    rw [sources_met hroot]
    exact pairwise_lt_mergeSort (pairwise_sources_meet (h.lookup hroot) s.root)
  | error fault =>
    rw [sources_met_of_error hroot, List.mergeSort_nil]
    exact List.Pairwise.nil

theorem pairwise_discover (s : Discovery) {d : Disk} (h : d.tree.IsProper) :
    (s.discover d).Pairwise fun a b => a.cmp b = .lt :=
  pairwise_search h (s.search_readable d)

/-- **What a search gives** are the files that are to be analysed and that can be read. -/
theorem mem_search {s : Discovery} {fault? : Path → Option EntryFault} {d : Disk}
    (h : d.tree.IsProper) {tree : FileTree} (hroot : d.lookup s.root = .ok tree)
    {files : List Path} (hfiles : s.search fault? d = .ok files) {f : Path} :
    f ∈ files ↔ ∃ names, f = s.root.below names ∧
      IsAnalyzable s.Matches s.root tree names ∧ IsReadable fault? s.root names := by
  have hproper := h.lookup hroot
  have henters : ∀ {names content}, tree.get? names = some (.file content) →
      (s.Enters s.root tree names ↔
        (∀ front, front ≠ [] → front <+: names → ¬ s.Matches front) ∧
          ∀ name ∈ names.dropLast, name ∉ ignoredDirectories) :=
    fun hget => enters_iff hproper [] (by simp) hget
  cases (search_eq s fault? d).symm.trans hfiles
  rw [sources_met hroot, List.mem_mergeSort, mem_sources_meet hproper]
  constructor
  · rintro ⟨names, content, hget, hway, hread, rfl, hsource⟩
    obtain ⟨hunmatched, hunignored⟩ := (henters hget).1 hway
    exact ⟨names, rfl, ⟨⟨content, hget⟩, hsource, hunmatched, hunignored⟩, hread⟩
  · rintro ⟨names, rfl, ⟨⟨content, hget⟩, hsource, hunmatched, hunignored⟩, hread⟩
    exact ⟨names, content, hget, (henters hget).2 ⟨hunmatched, hunignored⟩, hread, rfl, hsource⟩

theorem compilePatterns_cons (text : String) (texts : List String) :
    compilePatterns (text :: texts) =
      match Glob.compile (trimmed text) with
      | .ok p => (compilePatterns texts).map (p :: ·)
      | .error fault => .error (.globPattern fault) := by
  simp only [compilePatterns, List.mapM_cons]
  cases Glob.compile (trimmed text) <;> rfl

theorem exists_compilePatterns {texts : List String}
    (h : ∀ text ∈ texts, ∃ pattern, Glob.compile (trimmed text) = .ok pattern) :
    ∃ patterns, compilePatterns texts = .ok patterns ∧
      ∀ pattern, pattern ∈ patterns ↔
        ∃ text ∈ texts, Glob.compile (trimmed text) = .ok pattern := by
  induction texts with
  | nil => exact ⟨[], rfl, by simp⟩
  | cons text texts ih =>
    obtain ⟨⟨p, hp⟩, h⟩ := List.forall_mem_cons.1 h
    obtain ⟨patterns, hpatterns, hmem⟩ := ih h
    refine ⟨p :: patterns, ?_, fun pattern => ?_⟩
    · rw [compilePatterns_cons, hp, hpatterns]
      rfl
    · simp [hp, hmem, eq_comm]

/-- Some pattern, without the slashes at its end, matches what some names lead to. -/
def MatchedBy (texts names : List String) : Prop :=
  ∃ text ∈ texts, ∃ pattern, Glob.compile (trimmed text) = .ok pattern ∧ pattern.Matches names

/-- **Patterns that can be compiled make a search**, which matches what they match. -/
theorem exists_new (root : Path) {texts : List String}
    (h : ∀ text ∈ texts, ∃ pattern, Glob.compile (trimmed text) = .ok pattern) :
    ∃ s, new root texts = .ok s ∧ s.root = root ∧ s.Matches = MatchedBy texts := by
  obtain ⟨patterns, hpatterns, hmem⟩ := exists_compilePatterns h
  refine ⟨⟨root, patterns⟩, ?_, rfl, funext fun names => propext ?_⟩
  · rw [new, hpatterns]
    rfl
  · simp only [Matches, MatchedBy, hmem]
    constructor
    · rintro ⟨pattern, ⟨text, htext, hpattern⟩, hmatch⟩
      exact ⟨text, htext, pattern, hpattern, hmatch⟩
    · rintro ⟨text, htext, pattern, hpattern, hmatch⟩
      exact ⟨pattern, ⟨text, htext, hpattern⟩, hmatch⟩

/-- **A search finds exactly the files that are to be analysed.**  For every disk with a
proper tree, every path that leads to a directory, and all patterns of which each can be
compiled without the slashes at its end: what is found is in strictly increasing order, and
nothing is found twice; it is the source files below the directory such that no pattern
matches the file or a directory between the two, by the path from the root or by the name,
and no directory between the two has the name of an ignored one.  Nothing is asked of the
root.  Where some entries cannot be read, the search does not fail: in the same order, it gives
those of the files that can be reached and read. -/
theorem discover_exactly (d : Disk) (root : Path) (entries : List (String × FileTree))
    (texts : List String) (hproper : d.tree.IsProper) (hroot : d.lookup root = .ok (.dir entries))
    (htexts : ∀ text ∈ texts, ∃ pattern, Glob.compile (trimmed text) = .ok pattern) :
    ∃ s, new root texts = .ok s ∧
      (s.discover d).Pairwise (fun a b => a.cmp b = .lt) ∧ (s.discover d).Nodup ∧
      (∀ f, f ∈ s.discover d ↔ ∃ names, f = root.below names ∧
        IsAnalyzable (MatchedBy texts) root (.dir entries) names) ∧
      s.search (fun _ => none) d = .ok (s.discover d) ∧
      ∀ fault?, ∃ files, s.search fault? d = .ok files ∧
        files.Pairwise (fun a b => a.cmp b = .lt) ∧
        ∀ f, f ∈ files ↔ ∃ names, f = root.below names ∧
          IsAnalyzable (MatchedBy texts) root (.dir entries) names ∧
          IsReadable fault? root names := by
  obtain ⟨s, hnew, rfl, hmatches⟩ := exists_new root htexts
  have hsorted := s.pairwise_discover hproper
  have hnodup : (s.discover d).Nodup := (pairwise_ne_of_lt hsorted).imp fun hne heq =>
    hne (Path.cmp_eq_eq_iff.2 (congrArg Path.steps heq))
  rw [← hmatches]
  refine ⟨s, hnew, hsorted, hnodup, fun f => ?_, s.search_readable d, fun fault? =>
    ⟨_, s.search_eq fault? d, pairwise_search hproper (s.search_eq fault? d), fun f =>
      mem_search hproper hroot (s.search_eq fault? d)⟩⟩
  simpa [IsReadable] using mem_search hproper hroot (s.search_readable d)

/-- The hypotheses are satisfiable where much is passed over: of a directory `build` that is
the root, `lib/a.ts` and `lib.b/c.ts` are found in this order; a file that only describes, an
ignored directory, a directory that a pattern matches by its path and one that a pattern
matches by its name are not.  If `lib` cannot be read, only `lib.b/c.ts` is given. -/
theorem discover_exactly_build :
    let entries : List (String × FileTree) :=
      [("dist", .dir [("d.ts", .file (.text ""))]),
        ("gen", .dir [("e.ts", .file (.text ""))]),
        ("lib", .dir [("a.d.ts", .file (.text "")), ("a.ts", .file (.text "")),
          ("old", .dir [("f.ts", .file (.text ""))])]),
        ("lib.b", .dir [("c.ts", .file (.text "")), ("out", .file (.text ""))])]
    let d : Disk := ⟨.dir [("build", .dir entries)], [], none, none⟩
    let texts := ["gen/", "lib/o?d//"]
    let closedLib? (path : Path) : Option EntryFault :=
      if path = ⟨"/build/lib"⟩ then some ⟨true, "permission denied"⟩ else none
    d.tree.IsProper ∧ d.lookup ⟨"/build"⟩ = .ok (.dir entries) ∧
      (∀ text ∈ texts, ∃ pattern, Glob.compile (trimmed text) = .ok pattern) ∧
      ∃ s, new ⟨"/build"⟩ texts = .ok s ∧
        s.discover d = [⟨"/build/lib/a.ts"⟩, ⟨"/build/lib.b/c.ts"⟩] ∧
        (∀ f, f ∈ s.discover d ↔ ∃ names, f = (⟨"/build"⟩ : Path).below names ∧
          IsAnalyzable (MatchedBy texts) ⟨"/build"⟩ (.dir entries) names) ∧
        s.search closedLib? d = .ok [⟨"/build/lib.b/c.ts"⟩] := by
  intro entries d texts closedLib?
  have hproper : d.tree.IsProper := by
    simp [d, entries, FileTree.isProper_dir_iff, FileTree.isProper_file, Path.Step.IsPlain]
  have hroot : d.lookup ⟨"/build"⟩ = .ok (.dir entries) := rfl
  have htexts : ∀ text ∈ texts, ∃ pattern, Glob.compile (trimmed text) = .ok pattern :=
    List.forall_mem_cons.2 ⟨⟨_, rfl⟩, List.forall_mem_singleton.2 ⟨_, rfl⟩⟩
  obtain ⟨s, hnew, -, -, hexact, -, -⟩ := discover_exactly d ⟨"/build"⟩ entries texts hproper hroot htexts
  let gen : Glob.Pattern := ⟨"gen", [.char 'g', .char 'e', .char 'n']⟩
  let old : Glob.Pattern :=
    ⟨"lib/o?d", [.char 'l', .char 'i', .char 'b', .char '/', .char 'o', .any, .char 'd']⟩
  have hcompiled : new ⟨"/build"⟩ texts = .ok ⟨⟨"/build"⟩, [gen, old]⟩ := rfl
  obtain rfl : s = ⟨⟨"/build"⟩, [gen, old]⟩ := Except.ok.inj (hnew.symm.trans hcompiled)
  refine ⟨hproper, hroot, htexts, _, hnew, ?_, hexact, ?_⟩
  · let found : List Path := [⟨"/build/lib/a.ts"⟩, ⟨"/build/lib.b/c.ts"⟩]
    have hwalk : walk ⟨⟨"/build"⟩, [gen, old]⟩ ⟨"/build"⟩ (.dir entries) = found := by
      decide +kernel
    have hsorted : found.Pairwise fun a b => a.cmp b = .lt := by decide +kernel
    exact (discover_eq_mergeSort hroot).trans (mergeSort_eq_of_perm (.of_eq hwalk) hsorted)
  · have hmeet : sources (meet ⟨⟨"/build"⟩, [gen, old]⟩ closedLib? ⟨"/build"⟩ (.dir entries))
        = [⟨"/build/lib.b/c.ts"⟩] := by decide +kernel
    rw [search_eq, sources_met hroot, hmeet, List.mergeSort_singleton]

end Discovery
end DependencyUse
