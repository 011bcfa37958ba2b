/-
# Warnings and cycles of a trace

A search that stops warns, and only then: of a cycle if it came back to the importer or to a
file on the way, of the depth otherwise.  With a cycle it reports its files.  These are the
files of a closed walk:

| the search came back to | the walk | its edges |
| --- | --- | --- |
| a file on the way | from that file to the end of the way and back | re-exports |
| the importer | the whole way, and the importer | re-exports, but for the import |

The list that is reported is in strict order, so it hangs only on which files the walk
passes: a walk that is closed from somewhere else is reported in the same way.
-/

import DependencyUse.Proofs.Order
import DependencyUse.Proofs.Path.Shown
import DependencyUse.Proofs.Reexport.Stops
import Mathlib.Data.List.TakeWhile

namespace DependencyUse

/-- Re-exports that lead from one file to another and let some of the names through. -/
structure IsWalk (view : View Id) (asked : Flows) (first : Path) (edges : List Hop)
    (last : Path) : Prop where
  leads : Leads view first edges last
  stands : ∀ h ∈ edges, h.Stands view
  carries : (asked.along (edges.map Hop.record)).isSome = true

/-- A walk can be begun at any file that it passes. -/
theorem IsWalk.drop {view : View Id} {asked : Flows} {first last : Path} {front back : List Hop}
    (h : IsWalk view asked first (front ++ back) last) :
    ∃ later middle, IsWalk view later middle back last := by
  induction front generalizing asked first with
  | nil => exact ⟨asked, first, h⟩
  | cons edge front ih =>
    obtain ⟨-, -, goal, -, hleads⟩ := h.leads
    obtain ⟨next, star, -, hcarries⟩ := Flows.isSome_along_cons.1 h.carries
    exact ih ⟨hleads, (List.forall_mem_cons.1 h.stands).2, hcarries⟩

/-- The files of a walk that ends where it begins.  Its edges are re-exports; where it passes
the importer, the edge that leaves it is the import. -/
inductive ClosedWalk (view : View Id) (r : ImportRecord) (source : Path) : List Path → Prop where
  | reexports {asked : Flows} {first : Path} {edges : List Hop} (some_ : edges ≠ [])
      (walk : IsWalk view asked first edges first) (away : source.normalize ∉ edges.map Hop.file) :
      ClosedWalk view r source (edges.map Hop.file)
  | throughImport {target : Path} {edges : List Hop}
      (names : Id.run (view.resolve r.specifier source) = some target)
      (walk : IsWalk view (Flows.requestedBy r) target.normalize edges source.normalize) :
      ClosedWalk view r source (edges.map Hop.file ++ [source.normalize])

namespace Stop

/-- The search came back to the importer or to a file on the way. -/
def closes (importer : Path) (s : Stop) : Bool :=
  s.file ∈ importer :: s.hops.map Hop.file

/-- The hops from the file on that the search came back to. -/
def circle (s : Stop) : List Hop :=
  s.hops.dropWhile fun h => h.file ≠ s.file

/-- The files of the walk that is closed. -/
def walk (s : Stop) : List Path :=
  if s.circle = [] then s.hops.map Hop.file ++ [s.file] else s.circle.map Hop.file

/-- The warning about a stop. -/
def warning (display : Path → Path) (maxDepth : Nat) (importer : Path) (via : Location)
    (s : Stop) : Warning :=
  if s.closes importer then
    Warning.at_ .circularReexport ("Circular re-export: " ++ " -> ".intercalate
      ((s.hops.map Hop.file ++ [s.file]).map fun p => (display p).text)) (s.place via)
  else
    Warning.at_ .maxDepthReached ("Re-export chain longer than " ++ toString maxDepth
      ++ " files; stopped at " ++ (display s.file).text) (s.place via)

/-- The list shows the files of a closed walk, in strict order. -/
structure Reports (view : View Id) (r : ImportRecord) (source : Path) (s : Stop)
    (files : List Path) : Prop where
  closed : ClosedWalk view r source s.walk
  sorted : files.Pairwise fun a b => a.cmp b = .lt
  shown : ∀ p ∈ files, ∃ file ∈ s.walk, p = view.display file
  complete : ∀ file ∈ s.walk, ∃ p ∈ files, p.same (view.display file) = true

theorem circle_eq_nil_iff {s : Stop} : s.circle = [] ↔ s.file ∉ s.hops.map Hop.file := by
  rw [circle, List.dropWhile_eq_nil_iff, List.mem_map]
  simp

/-- What remains of the way from the file on is the files of the circle. -/
theorem from?_eq (s : Stop) :
    Trace.from? s.file (s.hops.map Hop.file)
      = if s.circle = [] then none else some (s.circle.map Hop.file) := by
  obtain ⟨hops, file⟩ := s
  induction hops with
  | nil => rfl
  | cons h hops ih =>
    rw [List.map_cons, Trace.from?]
    by_cases hfile : h.file = file
    · simp [circle, hfile]
    · have hcircle : circle ⟨h :: hops, file⟩ = circle ⟨hops, file⟩ := by
        simp [circle, hfile]
      rw [if_neg hfile, hcircle]
      exact ih

theorem cycleMembers_eq (display : Path → Path) (s : Stop) :
    Trace.cycleMembers display (s.hops.map Hop.file) s.file
      = sortUnique Path.cmp (s.walk.map display) := by
  rw [Trace.cycleMembers, from?_eq, walk]
  split <;> simp_all

/-- The circle begins at the file that the search came back to. -/
theorem file_of_circle_eq_cons {s : Stop} {h : Hop} {rest : List Hop}
    (hcircle : s.circle = h :: rest) : h.file = s.file := by
  have hhead := List.head?_dropWhile_not (fun h : Hop => h.file ≠ s.file) s.hops
  rw [show s.hops.dropWhile _ = _ from hcircle] at hhead
  simpa using hhead

/-- **A search that comes back closes a walk.** -/
theorem closedWalk_walk {view : View Id} {maxDepth : Nat} {r : ImportRecord} {source target : Path}
    {s : Stop} (htarget : Id.run (view.resolve r.specifier source) = some target)
    (hs : IsStop view [source.normalize] maxDepth (Flows.requestedBy r) target s)
    (hcloses : s.closes source.normalize = true) : ClosedWalk view r source s.walk := by
  have hway : IsWalk view (Flows.requestedBy r) target.normalize s.hops s.file :=
    ⟨hs.leads, hs.stands, hs.carries⟩
  rw [walk]
  split
  · rename_i hnone
    have himporter : s.file = source.normalize := by
      have hold : s.file = source.normalize ∨ s.file ∈ s.hops.map Hop.file := by
        simpa [closes] using hcloses
      exact hold.resolve_right (circle_eq_nil_iff.1 hnone)
    rw [himporter] at hway ⊢
    exact .throughImport htarget hway
  · rename_i hsome
    have hsplit : s.hops.takeWhile (fun h => h.file ≠ s.file) ++ s.circle = s.hops :=
      List.takeWhile_append_dropWhile
    rw [← hsplit] at hway
    obtain ⟨later, middle, hcircle⟩ := hway.drop
    -- the walk is closed: it begins at the file in which its first edge stands
    have hmiddle : middle = s.file := by
      obtain ⟨h, rest, heq⟩ := List.exists_cons_of_ne_nil hsome
      have hleads := hcircle.leads
      rw [heq] at hleads
      exact hleads.1.symm.trans (file_of_circle_eq_cons heq)
    rw [hmiddle] at hcircle
    refine .reexports hsome hcircle fun hmem => ?_
    obtain ⟨h, hh, hfile⟩ := List.mem_map.1 hmem
    exact hs.avoids h ((List.dropWhile_sublist _).subset hh) (by simp [hfile])

/-- Hops from a normal form on pass normal forms only. -/
theorem normalize_of_leads {view : View Id} {first last : Path} {hops : List Hop}
    (h : Leads view first hops last) (hfirst : first.normalize = first) :
    (∀ k ∈ hops, k.file.normalize = k.file) ∧ last.normalize = last := by
  induction hops generalizing first with
  | nil =>
    obtain rfl : first = last := h
    exact ⟨by simp, hfirst⟩
  | cons k hops ih =>
    obtain ⟨rfl, -, goal, -, hrest⟩ := h
    obtain ⟨hfiles, hlast⟩ := ih hrest (Path.normalize_normalize goal)
    exact ⟨List.forall_mem_cons.2 ⟨hfirst, hfiles⟩, hlast⟩

theorem normalize_of_mem_walk {view : View Id} {avoided : List Path} {room : Nat} {flows : Flows}
    {target : Path} {s : Stop} (hs : IsStop view avoided room flows target s) {file : Path}
    (hfile : file ∈ s.walk) : file.normalize = file := by
  obtain ⟨hfiles, hlast⟩ := normalize_of_leads hs.leads (Path.normalize_normalize target)
  rw [walk] at hfile
  split at hfile
  · rcases List.mem_append.1 hfile with hfile | hfile
    · obtain ⟨h, hh, rfl⟩ := List.mem_map.1 hfile
      exact hfiles h hh
    · rw [List.mem_singleton.1 hfile]
      exact hlast
  · obtain ⟨h, hh, rfl⟩ := List.mem_map.1 hfile
    exact hfiles h ((List.dropWhile_sublist _).subset hh)

theorem warnings_outcome (display : Path → Path) (maxDepth : Nat) (importer : Path)
    (via : Location) (s : Stop) :
    (s.outcome display maxDepth importer [] via).warnings
      = [s.warning display maxDepth importer via] := by
  simp only [outcome, warning, closes, List.nil_append, decide_eq_true_eq]
  split <;> rfl

theorem cycles_outcome (display : Path → Path) (maxDepth : Nat) (importer : Path)
    (via : Location) (s : Stop) :
    (s.outcome display maxDepth importer [] via).cycles
      = if s.closes importer then [sortUnique Path.cmp (s.walk.map display)] else [] := by
  simp only [outcome, closes, List.nil_append, decide_eq_true_eq, ← cycleMembers_eq]
  split <;> rfl

theorem code_warning_iff {display : Path → Path} {maxDepth : Nat} {importer : Path}
    {via : Location} {s : Stop} :
    (s.warning display maxDepth importer via).code = .circularReexport ↔
      s.closes importer = true := by
  rw [warning]
  split <;> simp_all [Warning.at_]

end Stop

namespace Trace

/-- The stops of the search that follows an import, in order. -/
def tracedStops (view : View Id) (maxDepth : Nat) (r : ImportRecord) (source : Path) :
    List Stop :=
  if !r.isRelative || r.typeOnly then []
  else match Id.run (view.resolve r.specifier source) with
    | none => []
    | some target => stops view maxDepth [source.normalize] (Flows.requestedBy r) target

/-- Those at which the search came back to the importer or to a file on the way. -/
def closingStops (view : View Id) (maxDepth : Nat) (r : ImportRecord) (source : Path) :
    List Stop :=
  (tracedStops view maxDepth r source).filter fun s => s.closes source.normalize

theorem mem_tracedStops {view : View Id} {maxDepth : Nat} {r : ImportRecord} {source : Path}
    {s : Stop} :
    s ∈ tracedStops view maxDepth r source ↔
      r.isRelative = true ∧ r.typeOnly = false ∧
        ∃ target, Id.run (view.resolve r.specifier source) = some target ∧
          IsStop view [source.normalize] maxDepth (Flows.requestedBy r) target s := by
  rw [tracedStops]
  cases hrel : r.isRelative with
  | false => simp
  | true =>
    cases hvalue : r.typeOnly with
    | true => simp
    | false => cases Id.run (view.resolve r.specifier source) <;> simp [mem_stops]

theorem notes_trace {α : Type} {note : TraceOutcome → List α} (hnote : IsNote note)
    (view : View Id) (maxDepth : Nat) (r : ImportRecord) (source : Path) :
    note (Id.run (trace view maxDepth r source))
      = (tracedStops view maxDepth r source).flatMap fun s =>
          note (s.outcome view.display maxDepth source.normalize [] r.location) := by
  rw [trace_eq_match, tracedStops]
  split
  · exact hnote.chains []
  · cases Id.run (view.resolve r.specifier source) with
    | none => exact hnote.chains []
    | some target => exact notes_visit hnote view maxDepth source.normalize maxDepth [] false _ _ _

/-- **Every stop is warned of**, and nothing else. -/
theorem warnings_trace (view : View Id) (maxDepth : Nat) (r : ImportRecord) (source : Path) :
    (Id.run (trace view maxDepth r source)).warnings
      = (tracedStops view maxDepth r source).map
          (Stop.warning view.display maxDepth source.normalize r.location) := by
  rw [notes_trace isNote_warnings]
  simp only [Stop.warnings_outcome]
  exact List.flatMap_pure_eq_map ..

/-- **Every closed walk is reported**, and nothing else. -/
theorem cycles_trace (view : View Id) (maxDepth : Nat) (r : ImportRecord) (source : Path) :
    (Id.run (trace view maxDepth r source)).cycles
      = (closingStops view maxDepth r source).map fun s =>
          sortUnique Path.cmp (s.walk.map view.display) := by
  rw [notes_trace isNote_cycles, closingStops]
  simp only [Stop.cycles_outcome]
  induction tracedStops view maxDepth r source with
  | nil => rfl
  | cons s found ih =>
    rw [List.flatMap_cons, ih]
    cases hs : s.closes source.normalize <;> simp [hs]

theorem pairwise_tracedStops (view : View Id) (maxDepth : Nat) (r : ImportRecord) (source : Path) :
    (tracedStops view maxDepth r source).Pairwise fun a b => Before a.hops b.hops := by
  rw [tracedStops]
  split
  · exact List.Pairwise.nil
  · cases Id.run (view.resolve r.specifier source) with
    | none => exact List.Pairwise.nil
    | some target => exact pairwise_stops view maxDepth _ _ target

/-- Circular warnings are those of the stops that close a walk. -/
theorem circular_warnings_trace (view : View Id) (maxDepth : Nat) (r : ImportRecord)
    (source : Path) :
    ((Id.run (trace view maxDepth r source)).warnings.filter fun w => w.code == .circularReexport)
      = (closingStops view maxDepth r source).map
          (Stop.warning view.display maxDepth source.normalize r.location) := by
  rw [warnings_trace, closingStops, List.filter_map]
  congr 1
  refine List.filter_congr fun s _ => ?_
  rw [Bool.eq_iff_iff]
  exact beq_iff_eq.trans Stop.code_warning_iff

/-- **What is reported at a closing stop** is the files of its walk. -/
theorem reports_of_mem_closingStops {view : View Id} {maxDepth : Nat} {r : ImportRecord}
    {source : Path} {s : Stop} (hs : s ∈ closingStops view maxDepth r source) :
    s.Reports view r source (sortUnique Path.cmp (s.walk.map view.display)) := by
  obtain ⟨htraced, hcloses⟩ := List.mem_filter.1 hs
  obtain ⟨-, -, target, htarget, hstop⟩ := mem_tracedStops.1 htraced
  refine ⟨Stop.closedWalk_walk htarget hstop hcloses, pairwise_sortUnique _, fun p hp => ?_,
    fun file hfile => ?_⟩
  · obtain ⟨file, hfile, rfl⟩ := List.mem_map.1 (mem_of_mem_sortUnique hp)
    exact ⟨file, hfile, rfl⟩
  · obtain ⟨p, hp, heq⟩ :=
      @exists_mem_sortUnique _ Path.cmp _ _ _ (List.mem_map_of_mem (f := view.display) hfile)
    exact ⟨p, hp, Path.same_iff.2 (Path.cmp_eq_eq_iff.1 heq).symm⟩

/-- What is shown at a closing stop is tidy if all that is shown of normal forms is. -/
theorem isTidy_of_mem_reported {view : View Id} {maxDepth : Nat} {r : ImportRecord}
    {source : Path} {s : Stop} (hs : s ∈ closingStops view maxDepth r source)
    (htidy : ∀ file : Path, (view.display file.normalize).IsTidy) {p : Path}
    (hp : p ∈ sortUnique Path.cmp (s.walk.map view.display)) : p.IsTidy := by
  obtain ⟨-, -, target, -, hstop⟩ := mem_tracedStops.1 (List.mem_filter.1 hs).1
  obtain ⟨file, hfile, rfl⟩ := List.mem_map.1 (mem_of_mem_sortUnique hp)
  rw [← Stop.normalize_of_mem_walk hstop hfile]
  exact htidy file

/-- **The warnings and the cycles of a trace are exact.**  For every view, depth, import and
importer: the stops of the search are in depth-first order, and they are the steps along
forwarding re-exports (or the import itself) to the importer, to a file on the way, or to any
other file when there is no room for it.  The warnings are theirs, one each: a circular one
if the step closes a walk, one about the depth otherwise.  The cycles are one for each
circular warning, in the same order; each is the strictly ordered list of the files of the
closed walk, whose edges are re-exports but for the import where it leaves the importer.  Two
traces that close walks through the same files report the same paths, and the same texts if
files are shown tidily. -/
theorem warnings_and_cycles_of_trace (view : View Id) (maxDepth : Nat) (r : ImportRecord)
    (source : Path) :
    (∀ s, s ∈ tracedStops view maxDepth r source ↔
      r.isRelative = true ∧ r.typeOnly = false ∧
        ∃ target, Id.run (view.resolve r.specifier source) = some target ∧
          IsStop view [source.normalize] maxDepth (Flows.requestedBy r) target s) ∧
    (tracedStops view maxDepth r source).Pairwise (fun a b => Before a.hops b.hops) ∧
    (Id.run (trace view maxDepth r source)).warnings
      = (tracedStops view maxDepth r source).map
          (Stop.warning view.display maxDepth source.normalize r.location) ∧
    ((Id.run (trace view maxDepth r source)).warnings.filter
        fun w => w.code == .circularReexport)
      = (closingStops view maxDepth r source).map
          (Stop.warning view.display maxDepth source.normalize r.location) ∧
    List.Forall₂ (Stop.Reports view r source) (closingStops view maxDepth r source)
      (Id.run (trace view maxDepth r source)).cycles ∧
    ∀ maxDepth' r' source' (i j : Nat) (s s' : Stop) (files files' : List Path),
      (closingStops view maxDepth r source)[i]? = some s →
      (Id.run (trace view maxDepth r source)).cycles[i]? = some files →
      (closingStops view maxDepth' r' source')[j]? = some s' →
      (Id.run (trace view maxDepth' r' source')).cycles[j]? = some files' →
      (∀ file, file ∈ s.walk ↔ file ∈ s'.walk) →
        files.map Path.steps = files'.map Path.steps ∧
        ((∀ file : Path, (view.display file.normalize).IsTidy) → files = files') := by
  refine ⟨fun s => mem_tracedStops, pairwise_tracedStops view maxDepth r source,
    warnings_trace view maxDepth r source, circular_warnings_trace view maxDepth r source, ?_, ?_⟩
  · rw [cycles_trace, List.forall₂_map_right_iff]
    exact List.forall₂_same.2 fun s hs => reports_of_mem_closingStops hs
  · intro maxDepth' r' source' i j s s' files files' hs hfiles hs' hfiles' hsame
    rw [cycles_trace, List.getElem?_map, hs] at hfiles
    rw [cycles_trace, List.getElem?_map, hs'] at hfiles'
    obtain rfl : sortUnique Path.cmp (s.walk.map view.display) = files := Option.some.inj hfiles
    obtain rfl : sortUnique Path.cmp (s'.walk.map view.display) = files' := Option.some.inj hfiles'
    have hsteps := @steps_sortUnique_congr (s.walk.map view.display) (s'.walk.map view.display)
      fun steps => by simp [hsame]
    refine ⟨hsteps, fun htidy => ?_⟩
    exact Path.eq_of_map_steps_eq
      (fun p => isTidy_of_mem_reported (List.mem_of_getElem? hs) htidy)
      (fun p => isTidy_of_mem_reported (List.mem_of_getElem? hs') htidy) hsteps

/-- The hypotheses are satisfiable where a circle is entered at two files: `/a.ts` imports from
`/b.ts` and `/d.ts` from `/c.ts`, which forward all of each other.  From `/a.ts`, the search
also comes to `/e.ts`, which is too deep, and back to `/a.ts`. -/
theorem warnings_and_cycles_of_trace_two_entries :
    let view : View Id :=
      { tableView
          [(⟨"/b.ts"⟩, [recordAt "/b.ts" 1 .reexportAll "./c" [],
              recordAt "/b.ts" 2 .reexportAll "./a" []]),
            (⟨"/c.ts"⟩, [recordAt "/c.ts" 1 .reexportAll "./b" [],
              recordAt "/c.ts" 2 .reexportAll "./e" []])]
          [(("./b", ⟨"/a.ts"⟩), ⟨"/b.ts"⟩), (("./c", ⟨"/d.ts"⟩), ⟨"/c.ts"⟩),
            (("./c", ⟨"/b.ts"⟩), ⟨"/c.ts"⟩), (("./a", ⟨"/b.ts"⟩), ⟨"/a.ts"⟩),
            (("./b", ⟨"/c.ts"⟩), ⟨"/b.ts"⟩), (("./e", ⟨"/c.ts"⟩), ⟨"/e.ts"⟩)] with
        display := fun p => p.displayedFrom ⟨"/"⟩ }
    let r := recordAt "/a.ts" 1 .named "./b" [⟨"x", "x"⟩]
    let r' := recordAt "/d.ts" 1 .named "./c" [⟨"y", "y"⟩]
    let outcome := Id.run (trace view 2 r ⟨"/a.ts"⟩)
    let outcome' := Id.run (trace view 2 r' ⟨"/d.ts"⟩)
    outcome.warnings.map Warning.code = [.circularReexport, .maxDepthReached, .circularReexport] ∧
      outcome.cycles = [[⟨"b.ts"⟩, ⟨"c.ts"⟩], [⟨"a.ts"⟩, ⟨"b.ts"⟩]] ∧
      outcome.warnings = (tracedStops view 2 r ⟨"/a.ts"⟩).map
        (Stop.warning view.display 2 (⟨"/a.ts"⟩ : Path).normalize r.location) ∧
      (closingStops view 2 r ⟨"/a.ts"⟩).map Stop.walk
        = [[⟨"/b.ts"⟩, ⟨"/c.ts"⟩], [⟨"/b.ts"⟩, ⟨"/a.ts"⟩]] ∧
      (closingStops view 2 r' ⟨"/d.ts"⟩).map Stop.walk = [[⟨"/c.ts"⟩, ⟨"/b.ts"⟩]] ∧
      outcome.cycles[0]? = outcome'.cycles[0]? := by
  intro view r r' outcome outcome'
  have hwalks : (closingStops view 2 r ⟨"/a.ts"⟩).map Stop.walk
      = [[⟨"/b.ts"⟩, ⟨"/c.ts"⟩], [⟨"/b.ts"⟩, ⟨"/a.ts"⟩]] := by decide +kernel
  have hwalks' : (closingStops view 2 r' ⟨"/d.ts"⟩).map Stop.walk = [[⟨"/c.ts"⟩, ⟨"/b.ts"⟩]] := by
    decide +kernel
  obtain ⟨-, -, hwarnings, -, -, hequal⟩ := warnings_and_cycles_of_trace view 2 r ⟨"/a.ts"⟩
  refine ⟨by decide +kernel, by decide +kernel, hwarnings, hwalks, hwalks', ?_⟩
  have hfirst := congrArg (fun walks => walks[0]?) hwalks
  have hfirst' := congrArg (fun walks => walks[0]?) hwalks'
  simp only [List.getElem?_map, List.getElem?_cons_zero, Option.map_eq_some_iff] at hfirst hfirst'
  obtain ⟨s, hs, hwalk⟩ := hfirst
  obtain ⟨s', hs', hwalk'⟩ := hfirst'
  obtain ⟨files, hfiles⟩ : ∃ files, outcome.cycles[0]? = some files :=
    Option.isSome_iff_exists.1 (by decide +kernel)
  obtain ⟨files', hfiles'⟩ : ∃ files', outcome'.cycles[0]? = some files' :=
    Option.isSome_iff_exists.1 (by decide +kernel)
  have hsame : ∀ file, file ∈ s.walk ↔ file ∈ s'.walk := by
    simp [hwalk, hwalk', or_comm]
  rw [hfiles, hfiles', (hequal 2 r' ⟨"/d.ts"⟩ 0 0 s s' files files' hs hfiles hs' hfiles' hsame).2
    fun file => Path.isTidy_displayedFrom file ⟨"/"⟩]

end Trace
end DependencyUse
