/-
# Each warning of a project once

The traces of a project warn of the same thing over and over: a cycle is met from every import
that leads into it, and wherever it is entered.  The index of the project keeps of

| warnings | that are the same by | the first one by |
| --- | --- | --- |
| of cycles | the files of the cycle | file, import and search |
| of anything else | code and place | file, import and search |

and nothing else.  The warnings of cycles and the files of the cycles are two lists of an
outcome; that they are read together without a mistake is because the search makes one entry of
each for every stop that closes a walk (`cycleWarnings_trace`).
-/

import DependencyUse.Proofs.Distinct
import DependencyUse.Proofs.Reexport.Cycles
import DependencyUse.Proofs.Reexport.History
import DependencyUse.Proofs.Verdict.Traces

namespace DependencyUse

/-- Every cycle of an outcome goes with its warning, and every circular warning with its
cycle. -/
structure TraceOutcome.Aligned (o : TraceOutcome) : Prop where
  cycles : o.cycleWarnings.map Prod.fst = o.cycles
  warnings : o.cycleWarnings.map Prod.snd = o.warnings.filter fun w => w.code == .circularReexport

/-- The warnings of an outcome that are not about cycles. -/
def TraceOutcome.otherWarnings (o : TraceOutcome) : List Warning :=
  o.warnings.filter fun w => w.code != .circularReexport

/-- What a cycle is known by: the steps of its files. -/
def cycleKey (c : List Path × Warning) : List (List Path.Step) :=
  c.1.map Path.steps

namespace Trace

/-- **The cycles of a trace and their warnings** are those of the stops that close a walk. -/
theorem cycleWarnings_trace (view : View Id) (maxDepth : Nat) (r : ImportRecord) (source : Path) :
    (Id.run (trace view maxDepth r source)).cycleWarnings
      = (closingStops view maxDepth r source).map fun s =>
          (sortUnique Path.cmp (s.walk.map view.display),
            s.warning view.display maxDepth source.normalize r.location) := by
  rw [TraceOutcome.cycleWarnings, cycles_trace, circular_warnings_trace, List.zip_map']

theorem aligned_trace (view : View Id) (maxDepth : Nat) (r : ImportRecord) (source : Path) :
    (Id.run (trace view maxDepth r source)).Aligned where
  cycles := by
    rw [cycleWarnings_trace, cycles_trace, List.map_map]
    rfl
  warnings := by
    rw [cycleWarnings_trace, circular_warnings_trace, List.map_map]
    rfl

end Trace

namespace Project

/-- The circular warnings of the imports of a project, with the files of their cycles: by file,
by import, and in the order of the search. -/
def circles (d : Disk) (maxDepth : Nat) (p : Project) : List (List Path × Warning) :=
  p.files.flatMap fun file =>
    file.followed.flatMap fun r => (p.outcome d maxDepth file r).cycleWarnings

/-- The other warnings of the imports of a project, in the same order. -/
def otherWarnings (d : Disk) (maxDepth : Nat) (p : Project) : List Warning :=
  p.files.flatMap fun file =>
    file.followed.flatMap fun r => (p.outcome d maxDepth file r).otherWarnings

variable {d : Disk} {maxDepth : Nat} {p : Project}

/-- **Every cycle that is noted** is closed by the search that follows some import. -/
theorem mem_circles {circle : List Path × Warning} :
    circle ∈ p.circles d maxDepth ↔ ∃ file ∈ p.files, ∃ r ∈ file.followed,
      ∃ s ∈ Trace.closingStops (p.view d) maxDepth r file.path,
        circle = (sortUnique Path.cmp (s.walk.map (p.view d).display),
          s.warning (p.view d).display maxDepth file.path.normalize r.location) := by
  simp only [circles, List.mem_flatMap, outcome, Trace.cycleWarnings_trace, List.mem_map, eq_comm]

/-- The files of a cycle are shown tidily, so the same files are shown by the same texts. -/
theorem eq_iff_cycleKey_eq {a b : List Path × Warning} (ha : a ∈ p.circles d maxDepth)
    (hb : b ∈ p.circles d maxDepth) : a.1 = b.1 ↔ cycleKey a = cycleKey b := by
  have htidy : ∀ {c : List Path × Warning}, c ∈ p.circles d maxDepth → ∀ q ∈ c.1, q.IsTidy := by
    intro c hc q hq
    obtain ⟨file, -, r, -, s, hs, rfl⟩ := mem_circles.1 hc
    exact Trace.isTidy_of_mem_reported hs (fun file => Path.isTidy_displayedFrom file p.root) hq
  exact ⟨fun h => congrArg (List.map Path.steps) h, Path.eq_of_map_steps_eq (htidy ha) (htidy hb)⟩

end Project

namespace TraceIndex

/-- A warning with the files of its cycle. -/
def Noted.circle (c : List Path × Warning) : Noted := ⟨some c.1, c.2⟩

/-- A warning that is not about a cycle. -/
def Noted.other (w : Warning) : Noted := ⟨none, w⟩

theorem noted_eq (o : TraceOutcome) :
    noted o = o.cycleWarnings.map Noted.circle ++ o.otherWarnings.map Noted.other := rfl

theorem nothing_of_isEmpty {o : TraceOutcome} (h : o.isEmpty = true) :
    o.cycleWarnings = [] ∧ o.otherWarnings = [] := by
  have hnone := noted_of_isEmpty h
  rw [noted_eq, List.append_eq_nil_iff] at hnone
  exact hnone.imp List.map_eq_nil_iff.1 List.map_eq_nil_iff.1

theorem same_congr_isSome {a b : Noted} (h : a.same b = true) :
    a.cycle.isSome = b.cycle.isSome := by
  rw [Noted.same] at h
  cases ha : a.cycle <;> cases hb : b.cycle <;> simp_all

/-- Of what is noted, the warnings about cycles are those that have one. -/
theorem code_of_mem_noted {o : TraceOutcome} {n : Noted} (hn : n ∈ noted o) :
    (n.warning.code == .circularReexport) = n.cycle.isSome := by
  rw [noted_eq, List.mem_append] at hn
  rcases hn with hn | hn
  · obtain ⟨c, hc, rfl⟩ := List.mem_map.1 hn
    exact (List.mem_filter.1 (List.of_mem_zip hc).2).2
  · obtain ⟨w, hw, rfl⟩ := List.mem_map.1 hn
    have hcode := (List.mem_filter.1 hw).2
    simpa [Noted.other] using hcode

theorem filter_isSome_noted (o : TraceOutcome) :
    ((noted o).filter fun n => n.cycle.isSome) = o.cycleWarnings.map Noted.circle := by
  rw [noted_eq, List.filter_append, List.filter_map, List.filter_map]
  simp [Function.comp_def, Noted.circle, Noted.other]

theorem filter_isNone_noted (o : TraceOutcome) :
    ((noted o).filter fun n => !n.cycle.isSome) = o.otherWarnings.map Noted.other := by
  rw [noted_eq, List.filter_append, List.filter_map, List.filter_map]
  simp [Function.comp_def, Noted.circle, Noted.other]

variable (d : Disk) (maxDepth : Nat) (p : Project)

/-- What the imports of a project note, one after the other. -/
def allNoted : List Noted :=
  p.files.flatMap fun file => file.followed.flatMap fun r => noted (p.outcome d maxDepth file r)

/-- Some warnings of a project are the first ones of some that are noted, if it shows in what is
noted which ones they are, and same ones go together. -/
theorem filter_warnings_build {keep : Warning → Bool} {pick : Noted → Bool}
    (hpick : ∀ o, ∀ n ∈ noted o, keep n.warning = pick n)
    (hsame : ∀ a b, Noted.same a b = true → pick a = pick b) :
    (build d maxDepth p).warnings.filter keep
      = (distinctBy Noted.same ((allNoted d maxDepth p).filter pick)).map Noted.warning := by
  rw [← filter_distinctBy hsame, warnings_build, List.filter_map]
  refine congrArg (List.map _) (List.filter_congr fun n hn => ?_)
  have hmem : n ∈ allNoted d maxDepth p := (distinctBy_sublist _ _).subset hn
  obtain ⟨file, -, hmem⟩ := List.mem_flatMap.1 hmem
  obtain ⟨r, -, hmem⟩ := List.mem_flatMap.1 hmem
  exact hpick _ n hmem

/-- **The circular warnings of a project** are those of its cycles, the first one each. -/
theorem circular_warnings_build :
    ((build d maxDepth p).warnings.filter fun w => w.code == .circularReexport)
      = (distinctBy (fun a b => a.1 == b.1) (p.circles d maxDepth)).map Prod.snd := by
  have hcircles : ((allNoted d maxDepth p).filter fun n => n.cycle.isSome)
      = (p.circles d maxDepth).map Noted.circle := by
    simp only [allNoted, Project.circles, List.filter_flatMap, List.map_flatMap,
      filter_isSome_noted]
  rw [filter_warnings_build d maxDepth p (fun _ _ => code_of_mem_noted)
    fun _ _ => same_congr_isSome, hcircles, distinctBy_map, List.map_map]
  rfl

/-- **The other warnings of a project** are those of its imports, the first one each. -/
theorem other_warnings_build :
    ((build d maxDepth p).warnings.filter fun w => w.code != .circularReexport)
      = distinctBy Warning.same (p.otherWarnings d maxDepth) := by
  have hothers : ((allNoted d maxDepth p).filter fun n => !n.cycle.isSome)
      = (p.otherWarnings d maxDepth).map Noted.other := by
    simp only [allNoted, Project.otherWarnings, List.filter_flatMap, List.map_flatMap,
      filter_isNone_noted]
  rw [filter_warnings_build d maxDepth p (fun _ _ hn => congrArg not (code_of_mem_noted hn))
    fun _ _ h => congrArg not (same_congr_isSome h), hothers, distinctBy_map, List.map_map]
  exact List.map_id _

variable {d maxDepth p}

/-- The files that are shown are those of a cycle. -/
def Shows (display : Path → Path) (shown cycle : List Path) : Prop :=
  ∀ steps, steps ∈ shown.map Path.steps ↔ steps ∈ cycle.map fun file => (display file).steps

/-- **What is noted of a cycle** shows its files. -/
theorem shows_sortUnique (display : Path → Path) {walk cycle : List Path}
    (hsame : ∀ file, file ∈ walk ↔ file ∈ cycle) :
    Shows display (sortUnique Path.cmp (walk.map display)) cycle := by
  intro steps
  rw [mem_steps_sortUnique, List.map_map]
  simp [hsame]

/-- Two entries that show the files of one cycle have the same key. -/
theorem cycleKey_eq_of_shows {a b : List Path × Warning} {cycle : List Path}
    (ha : a ∈ p.circles d maxDepth) (hb : b ∈ p.circles d maxDepth)
    (hshows : Shows (p.view d).display a.1 cycle) (hshows' : Shows (p.view d).display b.1 cycle) :
    cycleKey a = cycleKey b := by
  obtain ⟨_, -, _, -, s, -, rfl⟩ := Project.mem_circles.1 ha
  obtain ⟨_, -, _, -, s', -, rfl⟩ := Project.mem_circles.1 hb
  refine steps_sortUnique_congr fun steps => ?_
  rw [← mem_steps_sortUnique, ← @mem_steps_sortUnique (s'.walk.map _)]
  exact (hshows steps).trans (hshows' steps).symm

/-- **Every cycle that some import leads into has one entry** among the first ones. -/
theorem existsUnique_entry {kept : List (List Path × Warning)}
    (hkept : IsFirsts cycleKey (p.circles d maxDepth) kept) {file : ParsedFile}
    (hfile : file ∈ p.files) {r : ImportRecord} (hr : r ∈ file.followed) {s : Stop}
    (hs : s ∈ Trace.closingStops (p.view d) maxDepth r file.path) {cycle : List Path}
    (hcycle : ∀ f, f ∈ s.walk ↔ f ∈ cycle) :
    ∃! entry, entry ∈ kept ∧ Shows (p.view d).display entry.1 cycle := by
  obtain ⟨entry, hentry, hkey⟩ :=
    hkept.exists_key_eq (Project.mem_circles.2 ⟨file, hfile, r, hr, s, hs, rfl⟩)
  have hshows : Shows (p.view d).display entry.1 cycle := by
    intro steps
    rw [← cycleKey, hkey]
    exact shows_sortUnique _ hcycle steps
  refine ⟨entry, ⟨hentry, hshows⟩, fun other hother => ?_⟩
  exact hkept.eq_of_key_eq hother.1 hentry (cycleKey_eq_of_shows
    (hkept.sublist.subset hother.1) (hkept.sublist.subset hentry) hother.2 hshows)

/-- **Each warning of a project is reported once, and none is lost.**  For every disk, depth and
project: in every outcome that is kept, cycles and circular warnings go together one by one.  By
file, import and search, these are the circles of the project, and the circular warnings of the
index are of each set of files the first one; of the other warnings of the outcomes the index
has of each code and place the first one, and it has no other warnings.  So a cycle that some
imports lead into, from wherever and at whichever of its files, has one entry. -/
theorem warnings_build_once (d : Disk) (maxDepth : Nat) (p : Project) :
    (∀ traced ∈ (build d maxDepth p).traced, traced.outcome.Aligned) ∧
    ((build d maxDepth p).traced.flatMap fun traced => traced.outcome.cycleWarnings)
      = p.circles d maxDepth ∧
    ((build d maxDepth p).traced.flatMap fun traced => traced.outcome.otherWarnings)
      = p.otherWarnings d maxDepth ∧
    IsFirsts Warning.key (p.otherWarnings d maxDepth)
      ((build d maxDepth p).warnings.filter fun w => w.code != .circularReexport) ∧
    ∃ kept, IsFirsts cycleKey (p.circles d maxDepth) kept ∧
      ((build d maxDepth p).warnings.filter fun w => w.code == .circularReexport)
        = kept.map Prod.snd ∧
      ∀ file ∈ p.files, ∀ r ∈ file.followed,
        ∀ s ∈ Trace.closingStops (p.view d) maxDepth r file.path,
          ∀ cycle : List Path, (∀ f, f ∈ s.walk ↔ f ∈ cycle) →
            ∃! entry, entry ∈ kept ∧ Shows (p.view d).display entry.1 cycle := by
  have hfirsts : IsFirsts Prod.fst (p.circles d maxDepth)
      (distinctBy (fun a b => a.1 == b.1) (p.circles d maxDepth)) :=
    isFirsts_distinctBy (by simp) _
  have hkept := hfirsts.congr fun a ha b hb => Project.eq_iff_cycleKey_eq ha hb
  refine ⟨?_, ?_, ?_, ?_, _, hkept, circular_warnings_build d maxDepth p, ?_⟩
  · rintro ⟨i, j, o⟩ htraced
    obtain ⟨file, r, -, -, -, rfl, -⟩ := mem_traced_build.1 htraced
    exact Trace.aligned_trace _ _ _ _
  · exact flatMap_outcomes_build d maxDepth p fun o ho => (nothing_of_isEmpty ho).1
  · exact flatMap_outcomes_build d maxDepth p fun o ho => (nothing_of_isEmpty ho).2
  · rw [other_warnings_build]
    exact isFirsts_distinctBy (fun a b => @Warning.same_iff a b) _
  · intro file hfile r hr s hs cycle hcycle
    exact existsUnique_entry hkept hfile hr hs hcycle

/-- The hypotheses are satisfiable where a cycle is met three times: `/a.ts` imports twice from
`/b.ts` and `/d.ts` imports from `/c.ts`, which forward all of each other.  `/c.ts` forwards all
of `/e.ts` too, which is too deep from `/a.ts`. -/
theorem warnings_build_once_two_entries :
    let d : Disk := ⟨.dir [("a.ts", .file (.text "")), ("b.ts", .file (.text "")),
      ("c.ts", .file (.text "")), ("d.ts", .file (.text "")), ("e.ts", .file (.text ""))], [], none, none⟩
    let use (file : String) (line : Nat) (specifier name : String) : ImportRecord :=
      ⟨specifier, .named, [⟨name, name⟩], false, ⟨⟨file⟩, line, 1, ""⟩⟩
    let forward (file : String) (line : Nat) (specifier : String) : ImportRecord :=
      ⟨specifier, .reexportAll, [], false, ⟨⟨file⟩, line, 1, ""⟩⟩
    let a : ParsedFile :=
      ⟨⟨"/a.ts"⟩, ⟨"a.ts"⟩, [use "a.ts" 1 "./b" "x", use "a.ts" 2 "./b" "y"], {}⟩
    let b : ParsedFile := ⟨⟨"/b.ts"⟩, ⟨"b.ts"⟩, [forward "b.ts" 1 "./c"], {}⟩
    let c : ParsedFile :=
      ⟨⟨"/c.ts"⟩, ⟨"c.ts"⟩, [forward "c.ts" 1 "./b", forward "c.ts" 2 "./e"], {}⟩
    let e : ParsedFile := ⟨⟨"/d.ts"⟩, ⟨"d.ts"⟩, [use "d.ts" 1 "./c" "x"], {}⟩
    let p : Project := ⟨⟨"/"⟩, [a, b, c, e], [], 4, true⟩
    (p.circles d 2).map Prod.fst = [[⟨"b.ts"⟩, ⟨"c.ts"⟩], [⟨"b.ts"⟩, ⟨"c.ts"⟩],
        [⟨"b.ts"⟩, ⟨"c.ts"⟩]] ∧
      (p.otherWarnings d 2).length = 2 ∧
      (build d 2 p).warnings.map Warning.code = [.circularReexport, .maxDepthReached] ∧
      (Trace.closingStops (p.view d) 2 (use "d.ts" 1 "./c" "x") e.path).map Stop.walk
        = [[⟨"/c.ts"⟩, ⟨"/b.ts"⟩]] ∧
      ∃ kept, IsFirsts cycleKey (p.circles d 2) kept ∧
        ∃! entry, entry ∈ kept ∧
          Shows (p.view d).display entry.1 [⟨"/b.ts"⟩, ⟨"/c.ts"⟩] := by
  intro d use forward a b c e p
  have hwalks : (Trace.closingStops (p.view d) 2 (use "d.ts" 1 "./c" "x") e.path).map Stop.walk
      = [[⟨"/c.ts"⟩, ⟨"/b.ts"⟩]] := by decide +kernel
  obtain ⟨-, -, -, -, kept, hkept, -, hentry⟩ := warnings_build_once d 2 p
  obtain ⟨s, hs, hwalk⟩ := List.mem_map.1 (hwalks ▸ List.mem_singleton_self _)
  have hcycle : ∀ f, f ∈ s.walk ↔ f ∈ ([⟨"/b.ts"⟩, ⟨"/c.ts"⟩] : List Path) := by
    simp [hwalk, or_comm]
  exact ⟨by decide +kernel, by decide +kernel, by decide +kernel, hwalks, kept, hkept,
    hentry e (by simp [p]) _ (by decide) s hs _ hcycle⟩

end TraceIndex
end DependencyUse
