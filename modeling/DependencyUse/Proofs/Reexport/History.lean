/-
# Traces at any time and in any order

While a project is worked on, its memory is asked over and over, and what it holds hangs
on what was asked before:

| what may have happened before | what it leaves |
| --- | --- |
| an import was followed, to any depth | known files and known imports |
| the imports of a file were asked for | known imports |
| a specifier was resolved | known files |
| another project was worked on | known files only; its imports are forgotten |

None of this shows in an outcome.  Every memory that can arise answers as a fresh one
(`agrees_of_arises`), so an import has the same outcome whenever it is followed, and the
index of a project is the same in whatever order its imports are followed: the order of
the index comes from the places of the imports alone (`pairwise_targets`).
-/

import DependencyUse.Proofs.Order
import DependencyUse.Proofs.Reexport.Memory

namespace DependencyUse

/-- A search in the files of a project that asks the memory. -/
def Project.memoryView (d : Disk) (p : Project) : View (StateM Memory) :=
  Memory.view d fun file => file.displayedFrom p.root

/-- What following an import yields if nothing is remembered but the files of the project. -/
def Project.standAlone (d : Disk) (maxDepth : Nat) (p : Project) (r : ImportRecord)
    (source : Path) : TraceOutcome :=
  ((Trace.trace (p.memoryView d) maxDepth r source).run (TraceIndex.freshMemory p)).1

/-- Something that is asked of a memory. -/
inductive Request where
  | trace (maxDepth : Nat) (r : ImportRecord) (source : Path)
  | imports (file : Path)
  | resolve (specifier : String) (source : Path)

/-- The memory that a request leaves. -/
def Request.leave (d : Disk) (p : Project) (memory : Memory) : Request → Memory
  | .trace maxDepth r source => ((Trace.trace (p.memoryView d) maxDepth r source).run memory).2
  | .imports file => ((Memory.imports d file).run memory).2
  | .resolve specifier source => ((Memory.resolve d specifier source).run memory).2

namespace Memory

/-- The memories that there can be while a project is worked on. -/
inductive Arises (d : Disk) : Project → Memory → Prop where
  /-- at the start nothing is known but the files of the project -/
  | fresh (p : Project) : Arises d p (TraceIndex.freshMemory p)
  /-- something more is asked -/
  | asked {p : Project} {memory : Memory} (before : Arises d p memory) (request : Request) :
      Arises d p (request.leave d p memory)
  /-- the next project is worked on; what is known of which paths are files stays -/
  | next {old : Project} {memory : Memory} (before : Arises d old memory) (p : Project) :
      Arises d p { memory with parses := (TraceIndex.freshMemory p).parses }

variable {d : Disk} {p : Project} {memory : Memory}

/-- **A request leaves a good memory.** -/
theorem agrees_leave (h : Agrees d (TraceIndex.freshMemory p).parses memory) (request : Request) :
    Agrees d (TraceIndex.freshMemory p).parses (request.leave d p memory) := by
  cases request with
  | trace maxDepth r source =>
    exact (Trace.answers_trace (p.answers_view d) maxDepth r source memory h).2
  | imports file => exact (answers_imports d _ file memory h).2
  | resolve specifier source => exact (answers_resolve d _ specifier source memory h).2

/-- **Every memory that can arise is good.** -/
theorem agrees_of_arises (h : Arises d p memory) :
    Agrees d (TraceIndex.freshMemory p).parses memory := by
  induction h with
  | fresh p => exact ⟨ExistenceCache.agrees_empty d, fun _ => rfl⟩
  | asked _ request ih => exact agrees_leave ih request
  | next _ p ih => exact ⟨ih.1, fun _ => rfl⟩

/-- An import has the outcome that it has in the view of the project. -/
theorem trace_of_arises (h : Arises d p memory) (maxDepth : Nat) (r : ImportRecord)
    (source : Path) :
    ((Trace.trace (p.memoryView d) maxDepth r source).run memory).1
      = Id.run (Trace.trace (p.view d) maxDepth r source) :=
  (Trace.answers_trace (p.answers_view d) maxDepth r source memory (agrees_of_arises h)).1

/-- Imports that are followed one after the other are kept one by one. -/
theorem follow_of_arises (h : Arises d p memory) (maxDepth : Nat)
    (order : List (Nat × Nat × Path × ImportRecord)) :
    ((TraceIndex.follow (p.memoryView d) maxDepth order).run memory).1
      = order.filterMap (TraceIndex.kept? (p.view d) maxDepth) := by
  rw [← TraceIndex.follow_eq_filterMap]
  exact (TraceIndex.answers_follow (p.answers_view d) maxDepth order memory (agrees_of_arises h)).1

end Memory

/-- The order of traced imports: by file, then by record. -/
def TracedImport.cmp (a b : TracedImport) : Ordering :=
  (compare a.fileIndex b.fileIndex).then (compare a.recordIndex b.recordIndex)

theorem TracedImport.cmp_eq_compareLex :
    cmp = compareLex (compareOn fileIndex) (compareOn recordIndex) := rfl

instance : Std.TransCmp TracedImport.cmp := by
  rw [TracedImport.cmp_eq_compareLex]
  infer_instance

theorem TracedImport.cmp_eq_lt {a b : TracedImport} :
    a.cmp b = .lt ↔
      a.fileIndex < b.fileIndex ∨ a.fileIndex = b.fileIndex ∧ a.recordIndex < b.recordIndex := by
  rw [cmp, Ordering.then_eq_lt, Nat.compare_eq_lt, Nat.compare_eq_eq, Nat.compare_eq_lt]

namespace TraceIndex

/-- **The imports that are followed are listed by file, then by record.** -/
theorem pairwise_targets (files : List ParsedFile) :
    (targets files).Pairwise fun a b => a.1 < b.1 ∨ a.1 = b.1 ∧ a.2.1 < b.2.1 := by
  refine List.pairwise_flatMap.2 ⟨fun (file, i) _ => ?_, ?_⟩
  · exact List.pairwise_map.2
      (((pairwise_zipIdx file.imports).filter _).imp fun hlt => .inr ⟨rfl, hlt⟩)
  · refine (pairwise_zipIdx files).imp fun {a b} hlt x hx y hy => .inl ?_
    obtain ⟨_, -, rfl⟩ := List.mem_map.1 hx
    obtain ⟨_, -, rfl⟩ := List.mem_map.1 hy
    exact hlt

theorem mem_targets {files : List ParsedFile} {i j : Nat} {path : Path} {r : ImportRecord} :
    (i, j, path, r) ∈ targets files ↔
      ∃ file, files[i]? = some file ∧ file.imports[j]? = some r ∧ isTraced r = true ∧
        path = file.path := by
  simp only [targets, fileTargets, List.mem_flatMap, List.mem_map, List.mem_filter, Prod.exists,
    List.mem_zipIdx_iff_getElem?, Prod.mk.injEq]
  constructor
  · rintro ⟨file, _, hfile, _, _, ⟨hr, htraced⟩, rfl, rfl, rfl, rfl⟩
    exact ⟨file, hfile, hr, htraced, rfl⟩
  · rintro ⟨file, hfile, hr, htraced, rfl⟩
    exact ⟨file, i, hfile, r, j, ⟨hr, htraced⟩, rfl, rfl, rfl, rfl⟩

theorem kept?_eq_some {view : View Id} {maxDepth i j : Nat} {path : Path} {r : ImportRecord}
    {traced : TracedImport} :
    kept? view maxDepth (i, j, path, r) = some traced ↔
      (Id.run (Trace.trace view maxDepth r path)).isEmpty = false ∧
        traced = ⟨i, j, Id.run (Trace.trace view maxDepth r path)⟩ := by
  rw [kept?]
  cases (Id.run (Trace.trace view maxDepth r path)).isEmpty <;> simp [eq_comm]

/-- **The index of a project is in strict order.** -/
theorem pairwise_traced_build (d : Disk) (maxDepth : Nat) (p : Project) :
    (build d maxDepth p).traced.Pairwise fun a b => a.cmp b = .lt := by
  rw [build_eq]
  refine (pairwise_targets p.files).filterMap _ ?_
  rintro ⟨i, j, path, r⟩ ⟨i', j', path', r'⟩ hlt a ha b hb
  obtain ⟨-, rfl⟩ := kept?_eq_some.1 ha
  obtain ⟨-, rfl⟩ := kept?_eq_some.1 hb
  exact TracedImport.cmp_eq_lt.2 hlt

theorem isEmpty_eq_false_iff {o : TraceOutcome} :
    o.isEmpty = false ↔ o.chains ≠ [] ∨ o.warnings ≠ [] := by
  rw [TraceOutcome.isEmpty, Bool.and_eq_false_iff, List.isEmpty_eq_false_iff,
    List.isEmpty_eq_false_iff]

/-- **The index of a project holds** the imports that are followed to a chain or a warning. -/
theorem mem_traced_build {d : Disk} {maxDepth : Nat} {p : Project} {i j : Nat}
    {o : TraceOutcome} :
    ⟨i, j, o⟩ ∈ (build d maxDepth p).traced ↔
      ∃ file r, p.files[i]? = some file ∧ file.imports[j]? = some r ∧ isTraced r = true ∧
        o = Id.run (Trace.trace (p.view d) maxDepth r file.path) ∧
        (o.chains ≠ [] ∨ o.warnings ≠ []) := by
  rw [build_eq]
  show _ ∈ List.filterMap _ _ ↔ _
  simp only [List.mem_filterMap, Prod.exists, mem_targets, kept?_eq_some, TracedImport.mk.injEq]
  constructor
  · rintro ⟨_, _, _, r, ⟨file, hfile, hr, htraced, rfl⟩, hkept, rfl, rfl, rfl⟩
    exact ⟨file, r, hfile, hr, htraced, rfl, isEmpty_eq_false_iff.1 hkept⟩
  · rintro ⟨file, r, hfile, hr, htraced, rfl, hkept⟩
    exact ⟨i, j, file.path, r, ⟨file, hfile, hr, htraced, rfl⟩, isEmpty_eq_false_iff.2 hkept, rfl,
      rfl, rfl⟩

/-- **What is remembered and the order of traces do not show.**  For every disk, depth and
project, and every memory that can arise on that disk while the project is worked on:
every import has the outcome that it has on its own, and if the imports of the project are
followed in whatever order, their outcomes listed by place make up the same index.  That
index is strictly ordered by file and record, and it holds exactly the relative imports,
neither of types only nor re-exports, that are followed to a chain or a warning, with
the outcomes that they have on their own. -/
theorem build_any_time_any_order (d : Disk) (maxDepth : Nat) (p : Project) :
    (∀ memory, Memory.Arises d p memory →
      (∀ r source, ((Trace.trace (p.memoryView d) maxDepth r source).run memory).1
        = p.standAlone d maxDepth r source) ∧
      ∀ order, order.Perm (targets p.files) →
        ofTraced (((follow (p.memoryView d) maxDepth order).run memory).1.mergeSort
          fun a b => a.cmp b != .gt) = build d maxDepth p) ∧
    (build d maxDepth p).traced.Pairwise (fun a b => a.cmp b = .lt) ∧
    ∀ i j o, ⟨i, j, o⟩ ∈ (build d maxDepth p).traced ↔
      ∃ file r, p.files[i]? = some file ∧ file.imports[j]? = some r ∧
        r.isRelative = true ∧ r.typeOnly = false ∧ r.isReexport = false ∧
        o = p.standAlone d maxDepth r file.path ∧ (o.chains ≠ [] ∨ o.warnings ≠ []) := by
  have halone : ∀ r source,
      p.standAlone d maxDepth r source = Id.run (Trace.trace (p.view d) maxDepth r source) :=
    Memory.trace_of_arises (.fresh p) maxDepth
  refine ⟨fun memory h => ⟨fun r source => ?_, fun order hperm => ?_⟩,
    pairwise_traced_build d maxDepth p, fun i j o => ?_⟩
  · rw [halone]
    exact Memory.trace_of_arises h maxDepth r source
  · -- the order of the index is all that is left of the order of the imports
    have hsorted := pairwise_traced_build d maxDepth p
    rw [build_eq] at hsorted ⊢
    rw [Memory.follow_of_arises h]
    exact congrArg ofTraced (mergeSort_eq_of_perm (hperm.filterMap _) hsorted)
  · simp only [mem_traced_build, isTraced, halone, Bool.and_eq_true, Bool.not_eq_true', and_assoc]

/-- The hypotheses are satisfiable where memory and order could show: `/a.ts` and `/b.ts` use
`x` of `/c.ts`, which forwards `x` of `q` and everything of `/a.ts`; the use in `/b.ts` has
been followed before, to depth 1, for another project, and now both are followed in
reverse. -/
theorem build_any_time_any_order_circle :
    let d : Disk := ⟨.dir [("a.ts", .file (.text "")), ("b.ts", .file (.text "")),
      ("c.ts", .file (.text ""))], [], none, none⟩
    let use (name : String) : ImportRecord :=
      ⟨"./c", .named, [⟨"x", "x"⟩], false, ⟨⟨name⟩, 1, 1, ""⟩⟩
    let a : ParsedFile := ⟨⟨"/a.ts"⟩, ⟨"a.ts"⟩, [use "a.ts"], {}⟩
    let b : ParsedFile := ⟨⟨"/b.ts"⟩, ⟨"b.ts"⟩, [use "b.ts"], {}⟩
    let c : ParsedFile := ⟨⟨"/c.ts"⟩, ⟨"c.ts"⟩,
      [⟨"q", .reexport, [⟨"x", "x"⟩], false, ⟨⟨"c.ts"⟩, 1, 1, ""⟩⟩,
        ⟨"./a", .reexportAll, [], false, ⟨⟨"c.ts"⟩, 2, 1, ""⟩⟩], {}⟩
    let old : Project := ⟨⟨"/"⟩, [b], [], 1, true⟩
    let p : Project := ⟨⟨"/"⟩, [a, b, c], [], 3, true⟩
    let before := Request.leave d old (freshMemory old) (.trace 1 (use "b.ts") ⟨"/b.ts"⟩)
    let memory := Request.leave d p { before with parses := (freshMemory p).parses }
      (.imports ⟨"/d.ts"⟩)
    let order := (targets p.files).reverse
    Memory.Arises d p memory ∧ order.Perm (targets p.files) ∧ memory ≠ freshMemory p ∧
      order ≠ targets p.files ∧ (build d 5 p).traced.length = 2 ∧
      ofTraced (((follow (p.memoryView d) 5 order).run memory).1.mergeSort
        fun a b => a.cmp b != .gt) = build d 5 p := by
  intro d use a b c old p before memory order
  have harises : Memory.Arises d p memory := .asked (.next (.asked (.fresh old) _) p) _
  have hperm : order.Perm (targets p.files) := List.reverse_perm _
  exact ⟨harises, hperm, by decide +kernel, by decide +kernel, by decide +kernel,
    ((build_any_time_any_order d 5 p).1 memory harises).2 order hperm⟩

end TraceIndex
end DependencyUse
