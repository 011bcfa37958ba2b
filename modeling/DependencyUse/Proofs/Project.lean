/-
# Every file is accounted for

The files that a search finds are read one by one until the deadline.  Each gives an
outcome, a file that was read or one that was passed over, which keeps the path; the two
kinds are sorted apart.

| of the project | holds |
| --- | --- |
| the paths of both kinds | are those of the files that were started, each once (`perm_paths`) |
| each kind | is in strictly increasing order |
| the lookup by a path | finds the file that was read with these steps (`file?_eq_some_iff`) |
| the reports | are numbered from 1 to the number of files that were started |

Nothing is started after a deadline that has passed, and else everything is.
-/

import DependencyUse.Analysis
import DependencyUse.Proofs.Discovery

namespace DependencyUse

/-- Only a timeout of nothing has passed before the start. -/
theorem Deadline.isPast_ofTimeout {timeout : Option Nat} :
    (ofTimeout timeout).isPast = true ↔ timeout = some 0 := by
  cases timeout with
  | none => simp [ofTimeout, isPast]
  | some limit => cases limit <;> simp [ofTimeout, isPast]

namespace BoundedRun

variable {α β : Type}

/-- The items that are started: all, or none if the deadline has passed. -/
def started (deadline : Deadline) (items : List α) : List α :=
  if deadline.isPast then [] else items

/-- After the deadline every item is left out. -/
theorem foldl_step_late (total : Nat) (work : α → β) (items : List α) (r : BoundedRun β) :
    items.foldl (step total work true) r
      = { r with completed := r.completed && items.isEmpty } := by
  induction items generalizing r with
  | nil => simp
  | cons item items ih => simp [step, ih]

/-- Before the deadline every item is worked on, and the reports are numbered on. -/
theorem foldl_step_inTime (total : Nat) (work : α → β) (items : List α) (r : BoundedRun β) :
    items.foldl (step total work false) r
      = { r with
          results := r.results ++ items.map work
          updates := r.updates
            ++ (List.range' (r.updates.length + 1) items.length).map (⟨·, total⟩) } := by
  induction items generalizing r with
  | nil => simp
  | cons item items ih =>
    rw [List.foldl_cons, ih, step, if_neg Bool.false_ne_true]
    simp [List.range'_succ]

/-- **A run does its work on what is started**, numbers its reports from 1 on, and is complete if
everything was started. -/
theorem run_eq (deadline : Deadline) (work : α → β) (items : List α) :
    run deadline work items =
      { results := (started deadline items).map work
        completed := (started deadline items).length == items.length
        updates := (List.range' 1 (started deadline items).length).map (⟨·, items.length⟩) } := by
  rw [run, started]
  cases deadline.isPast with
  | true =>
    rw [foldl_step_late, if_pos rfl]
    cases items <;> rfl
  | false =>
    rw [foldl_step_inTime, if_neg Bool.false_ne_true]
    simp [fresh]

theorem started_sublist (deadline : Deadline) (items : List α) :
    (started deadline items).Sublist items := by
  rw [started]
  split
  · exact List.nil_sublist _
  · exact List.Sublist.refl _

end BoundedRun

/-- The path of an outcome. -/
def Analysis.outcomePath : Except SkippedFile ParsedFile → Path
  | .ok file => file.path
  | .error file => file.path

/-- **The outcome of a file keeps its path.** -/
theorem Disk.outcomePath_parseFile (d : Disk) (p display : Path) :
    Analysis.outcomePath (d.parseFile p display) = p := by
  have hskipped : ∀ file, d.readModule p = .error file → file.path = p := by
    intro file h
    rw [readModule] at h
    split at h
    · cases h; rfl
    · split at h
      · cases h; rfl
      · split at h
        · cases h; rfl
        · cases h
  rw [parseFile]
  cases hread : d.readModule p with
  | error file => exact hskipped file hread
  | ok read => rfl

namespace Project

/-- The paths of the files that were read and of those that were passed over. -/
def paths (p : Project) : List Path :=
  p.files.map ParsedFile.path ++ p.skipped.map SkippedFile.path

/-- The project says of every file of a list what became of it, once. -/
structure AccountsFor (p : Project) (found : List Path) : Prop where
  distinct : p.paths.Pairwise fun a b => a.same b = false
  files_sorted : p.files.Pairwise fun a b => a.path.cmp b.path = .lt
  skipped_sorted : p.skipped.Pairwise fun a b => a.path.cmp b.path = .lt
  subset : p.paths ⊆ found
  discovered : p.discovered = found.length
  completed : p.completed = true ↔ p.files.length + p.skipped.length = p.discovered
  lookup : ∀ path file, p.file? path = some file ↔ file ∈ p.files ∧ file.path.same path = true

/-- **The lookup by a path**: where the files are in order, it finds the file whose path has
the same steps, and nothing if there is none. -/
theorem file?_eq_some_iff {p : Project}
    (hsorted : p.files.Pairwise fun a b => a.path.cmp b.path = .lt) {path : Path}
    {file : ParsedFile} :
    p.file? path = some file ↔ file ∈ p.files ∧ file.path.same path = true := by
  have hafter : p.files.Pairwise fun a b => a.path.cmp path ≠ .lt → b.path.cmp path = .gt := by
    refine hsorted.imp fun {a b} hab hnot => ?_
    have hle : (path.cmp a.path).isLE = true :=
      Std.OrientedCmp.isGE_iff_isLE.1 (Ordering.isGE_iff_ne_lt.2 hnot)
    exact Std.OrientedCmp.gt_of_lt (Std.TransCmp.lt_of_isLE_of_lt hle hab)
  rw [file?, searchBy_eq_some_iff (by simpa using hafter), List.mem_toArray, Path.cmp_eq_eq_iff,
    Path.same_iff]

end Project

namespace Analysis

/-- **No outcome is lost or doubled** when the two kinds are taken apart. -/
theorem perm_outcomePaths (outcomes : List (Except SkippedFile ParsedFile)) :
    ((parsed outcomes).map ParsedFile.path ++ (skipped outcomes).map SkippedFile.path).Perm
      (outcomes.map outcomePath) := by
  induction outcomes with
  | nil => exact List.Perm.nil
  | cons outcome outcomes ih =>
    cases outcome with
    | ok file => exact ih.cons file.path
    | error file => exact List.perm_middle.trans (ih.cons file.path)

/-- Things with paths that differ are sorted strictly by their paths. -/
theorem pairwise_sorted {α : Type} {path : α → Path} {xs : List α}
    (h : (xs.map path).Pairwise fun a b => a.cmp b ≠ .eq) :
    (xs.mergeSort fun a b => (path a).cmp (path b) != .gt).Pairwise
      fun a b => (path a).cmp (path b) = .lt :=
  haveI := Path.transCmp_on path
  pairwise_lt_mergeSort (List.pairwise_map.1 h)

section Reading

variable (root : Path) (deadline : Deadline) (work : Path → Except SkippedFile ParsedFile)
  (found : List Path)

/-- The project that reading some files until a deadline yields. -/
def reading : Project :=
  let run := BoundedRun.run deadline work found
  { root
    files := (parsed run.results).mergeSort fun a b => a.path.cmp b.path != .gt
    skipped := (skipped run.results).mergeSort fun a b => a.path.cmp b.path != .gt
    discovered := found.length
    completed := run.completed }

variable {work}

theorem outcomePaths_run (hwork : ∀ path, outcomePath (work path) = path) :
    (BoundedRun.run deadline work found).results.map outcomePath
      = BoundedRun.started deadline found := by
  rw [BoundedRun.run_eq, List.map_map]
  exact List.map_id'' hwork _

/-- **The paths of the project** are those of the files that were started, each once. -/
theorem perm_paths (hwork : ∀ path, outcomePath (work path) = path) :
    (reading root deadline work found).paths.Perm (BoundedRun.started deadline found) := by
  rw [← outcomePaths_run deadline found hwork]
  refine .trans (.append ?_ ?_) (perm_outcomePaths _)
  · exact (List.mergeSort_perm _ _).map _
  · exact (List.mergeSort_perm _ _).map _

theorem length_reading (hwork : ∀ path, outcomePath (work path) = path) :
    (reading root deadline work found).files.length
      + (reading root deadline work found).skipped.length
        = (BoundedRun.started deadline found).length := by
  rw [← (perm_paths root deadline found hwork).length_eq, Project.paths, List.length_append,
    List.length_map, List.length_map]

/-- **Reading some files accounts for each of them.** -/
theorem accountsFor_reading (hwork : ∀ path, outcomePath (work path) = path)
    (hfound : found.Pairwise fun a b => a.cmp b = .lt) :
    (reading root deadline work found).AccountsFor found := by
  have hperm := perm_paths root deadline found hwork
  have hstarted : (BoundedRun.started deadline found).Pairwise fun a b => a.cmp b ≠ .eq :=
    pairwise_ne_of_lt (hfound.sublist (BoundedRun.started_sublist deadline found))
  have houtcomes := pairwise_ne_of_perm
    (perm_outcomePaths (BoundedRun.run deadline work found).results).symm
    (outcomePaths_run deadline found hwork ▸ hstarted)
  obtain ⟨hparsed, hskipped, -⟩ := List.pairwise_append.1 houtcomes
  have hfiles := pairwise_sorted hparsed
  exact {
    distinct := (pairwise_ne_of_perm hperm.symm hstarted).imp fun hne => by
      rwa [ne_eq, Path.cmp_eq_eq_iff, ← Path.same_iff, Bool.not_eq_true] at hne
    files_sorted := hfiles
    skipped_sorted := pairwise_sorted hskipped
    subset := fun path hpath =>
      (BoundedRun.started_sublist deadline found).subset (hperm.subset hpath)
    discovered := rfl
    completed := by
      rw [length_reading root deadline found hwork, reading, BoundedRun.run_eq]
      exact beq_iff_eq
    lookup := fun path file => Project.file?_eq_some_iff hfiles }

end Reading

theorem root_of_isDir {d : Disk} {dir : Path} (h : d.isDir dir = true) :
    ∃ root, Analysis.root d dir = .ok root :=
  ⟨_, if_pos h⟩

/-- The project of a source directory is what reading the files that are found yields. -/
theorem project_eq_reading {d : Disk} {o : Options} {dir root : Path} {s : Discovery}
    (hroot : Analysis.root d dir = .ok root) (hnew : Discovery.new root o.ignorePatterns = .ok s) :
    project d o dir = .ok
      (reading root (Deadline.ofTimeout o.timeout)
          (fun path => d.parseFile path (path.displayedFrom root)) (s.discover d),
        (BoundedRun.run (Deadline.ofTimeout o.timeout)
          (fun path => d.parseFile path (path.displayedFrom root)) (s.discover d)).updates) := by
  rw [project, hroot]
  show (Discovery.new root o.ignorePatterns).bind _ = _
  rw [hnew]
  show (s.search (fun _ => none) d).bind _ = _
  rw [s.search_readable]
  rfl

section Clock

variable {now : Nat} {d : Disk} {o : Options} {dir root : Path}

theorem projectAt_of_shown (hroot : Analysis.root d dir = .ok root)
    (hshown : Deadline.isShown now o.timeout = true) :
    projectAt now d o dir = (project d o dir).mapError .error := by
  rw [projectAt, hroot, hshown]
  rfl

theorem projectAt_of_not_shown (hroot : Analysis.root d dir = .ok root)
    (hshown : Deadline.isShown now o.timeout = false) :
    projectAt now d o dir = .error .brokenOff := by
  rw [projectAt, hroot, hshown]
  rfl

end Clock

/-- **Every file that is found is accounted for once.**  For every disk with a proper tree,
every source directory, all patterns of which each can be compiled, and every timeout: there
is a project, which accounts for the files that are found, and its reports count the files
that were read or passed over.  Nothing is left out unless the time is up at the start.
Whatever the clock shows at the start, this is the project that is read, or reading is broken
off because the clock cannot show the end of the timeout. -/
theorem project_accounts_for_all_found (d : Disk) (o : Options) (dir : Path)
    (hproper : d.tree.IsProper) (hdir : d.isDir dir = true)
    (htexts : ∀ text ∈ o.ignorePatterns,
      ∃ pattern, Glob.compile (Discovery.trimmed text) = .ok pattern) :
    ∃ root s p updates, Analysis.root d dir = .ok root ∧
      Discovery.new root o.ignorePatterns = .ok s ∧ project d o dir = .ok (p, updates) ∧
      p.AccountsFor (s.discover d) ∧
      updates = (List.range' 1 (p.files.length + p.skipped.length)).map (⟨·, p.discovered⟩) ∧
      (o.timeout ≠ some 0 → p.completed = true) ∧
      ∀ now, projectAt now d o dir
        = if Deadline.isShown now o.timeout then .ok (p, updates) else .error .brokenOff := by
  obtain ⟨root, hroot⟩ := root_of_isDir hdir
  obtain ⟨s, hnew, -, -⟩ := Discovery.exists_new root htexts
  have hwork : ∀ path : Path, outcomePath (d.parseFile path (path.displayedFrom root)) = path :=
    fun path => d.outcomePath_parseFile path _
  refine ⟨root, s, _, _, hroot, hnew, project_eq_reading hroot hnew,
    accountsFor_reading _ _ _ hwork (s.pairwise_discover hproper), ?_, fun htimeout => ?_,
    fun now => ?_⟩
  · rw [length_reading _ _ _ hwork, BoundedRun.run_eq]
    rfl
  · have hpast : (Deadline.ofTimeout o.timeout).isPast = false := by
      rwa [← Bool.not_eq_true, Deadline.isPast_ofTimeout]
    rw [reading, BoundedRun.run_eq, BoundedRun.started, hpast]
    exact beq_self_eq_true _
  · cases hshown : Deadline.isShown now o.timeout with
    | true =>
      rw [projectAt_of_shown hroot hshown, project_eq_reading hroot hnew]
      rfl
    | false => exact projectAt_of_not_shown hroot hshown

/-- The hypotheses are satisfiable with all three kinds of deadline: of the directory `a`,
`x.ts` is found and read and `y.ts` is found and passed over, for it is no text, or the time
is up for both. -/
theorem project_accounts_for_all_found_deadlines :
    let entries : List (String × FileTree) := [("x.ts", .file (.text "")),
      ("y.ts", .file (.binary [255])), ("z", .dir [("x.ts", .file (.text ""))])]
    let d : Disk := ⟨.dir [("a", .dir entries)], [], none, none⟩
    let options (timeout : Option Nat) : Options := { ignorePatterns := ["z/"], timeout }
    ∀ timeout ∈ [none, some 1000, some 0], d.tree.IsProper ∧ d.isDir ⟨"/a"⟩ = true ∧
      (∀ text ∈ (options timeout).ignorePatterns,
        ∃ pattern, Glob.compile (Discovery.trimmed text) = .ok pattern) ∧
      ∃ p updates, project d (options timeout) ⟨"/a"⟩ = .ok (p, updates) ∧
        p.AccountsFor [⟨"/a/x.ts"⟩, ⟨"/a/y.ts"⟩] ∧
        updates = (List.range' 1 (p.files.length + p.skipped.length)).map (⟨·, 2⟩) ∧
        (timeout ≠ some 0 → p.completed = true) ∧
        projectAt 0 d (options timeout) ⟨"/a"⟩ = .ok (p, updates) := by
  intro entries d options timeout htimeout
  have hdir : d.isDir ⟨"/a"⟩ = true := rfl
  have hlookup : d.lookup ⟨"/a"⟩ = .ok (.dir entries) := rfl
  have hproper : d.tree.IsProper := by
    simp [d, entries, FileTree.isProper_dir_iff, FileTree.isProper_file, Path.Step.IsPlain]
  have htexts : ∀ text ∈ (options timeout).ignorePatterns,
      ∃ pattern, Glob.compile (Discovery.trimmed text) = .ok pattern :=
    List.forall_mem_singleton.2 ⟨_, rfl⟩
  obtain ⟨root, s, p, updates, hroot, hnew, hproject, haccounts, hupdates, hcompleted, hclock⟩ :=
    project_accounts_for_all_found d (options timeout) ⟨"/a"⟩ hproper hdir htexts
  have hnormal : ((d.canonical? ⟨"/a"⟩).getD ⟨"/a"⟩).normalize = ⟨"/a"⟩ := by decide +kernel
  rw [Analysis.root, if_pos hdir, hnormal] at hroot
  obtain rfl := Except.ok.inj hroot
  let z : Glob.Pattern := ⟨"z", [.char 'z']⟩
  obtain rfl : s = ⟨⟨"/a"⟩, [z]⟩ := Except.ok.inj (hnew.symm.trans rfl)
  have hfound : Discovery.discover ⟨⟨"/a"⟩, [z]⟩ d = [⟨"/a/x.ts"⟩, ⟨"/a/y.ts"⟩] := by
    refine (Discovery.discover_eq_mergeSort hlookup).trans (mergeSort_eq_of_perm (.of_eq ?_) ?_)
    · decide +kernel
    · decide +kernel
  rw [hfound] at haccounts
  rw [haccounts.discovered] at hupdates
  have hshown : ∀ timeout ∈ [none, some 1000, some 0], Deadline.isShown 0 timeout = true := by
    decide
  exact ⟨hproper, hdir, htexts, p, updates, hproject, haccounts, hupdates, hcompleted,
    (hclock 0).trans (if_pos (hshown timeout htimeout))⟩

end Analysis
end DependencyUse
