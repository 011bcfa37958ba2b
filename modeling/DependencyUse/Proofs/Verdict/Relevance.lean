/-
# Records that do not matter to a verdict

A record concerns a component if it is not of types only, and names a file or the
component.  A verdict is the same without the records that do not concern its component:

| part of a verdict | read from | why it stays |
| --- | --- | --- |
| direct evidence | imports that name the component | they concern it |
| evidence of chains | chains that end at the component | they are found in thinned files too |
| warnings of traces | circles and depths | they come from re-exports that name files |
| the rest | call graphs and counts | they are not touched |

There is one way for another module to get in: a re-export that names the component is
passed over if some chain ends at its place, whatever the module of that chain is.  So
places must tell modules apart.
-/

import DependencyUse.Analysis
import DependencyUse.Proofs.Verdict.Traces

namespace DependencyUse

/-- The file without the records that do not concern the component. -/
def ParsedFile.concerning (c : Component) (file : ParsedFile) : ParsedFile :=
  { file with imports := file.imports.filter c.concerns }

namespace Project

/-- The project without the records that do not concern the component. -/
def concerning (c : Component) (p : Project) : Project :=
  { p with files := p.files.map (ParsedFile.concerning c) }

/-- A record that is seen: it stands in a file of the project, or on a route of an import
that is followed. -/
def Sees (d : Disk) (maxDepth : Nat) (p : Project) (r : ImportRecord) : Prop :=
  (∃ file ∈ p.files, r ∈ file.imports) ∨
    ∃ file ∈ p.files, ∃ start ∈ file.followed, ∃ target,
      d.resolve? start.specifier file.path = some target ∧
        ∃ route, IsRoute (p.view d) [file.path.normalize] maxDepth (Flows.requestedBy start)
          target route ∧ ∃ h ∈ route, h.record = r

/-- Re-exports that are seen at the same place name the same module. -/
def PlacesTellApart (d : Disk) (maxDepth : Nat) (p : Project) : Prop :=
  ∀ r s, p.Sees d maxDepth r → p.Sees d maxDepth s → r.isReexport = true → s.isReexport = true →
    r.location.same s.location = true → r.specifier = s.specifier

variable {d : Disk} {maxDepth : Nat} {p : Project} {c : Component}

/-- Every chain ends at a re-export that is seen. -/
theorem exists_sees_of_mem_chains {chain : ReexportChain}
    (h : chain ∈ (TraceIndex.build d maxDepth p).chains) :
    ∃ r, p.Sees d maxDepth r ∧ r.isReexport = true ∧ chain.specifier = r.specifier ∧
      chain.origin = r.location := by
  rw [TraceIndex.chains_build] at h
  obtain ⟨file, hfile, h⟩ := List.mem_flatMap.1 h
  obtain ⟨start, hstart, h⟩ := List.mem_flatMap.1 h
  obtain ⟨target, route, htarget, hroute, hchain⟩ := Trace.exists_route_of_mem_chains h
  obtain ⟨last, hlast, hspecifier, horigin⟩ := hchain.last
  have hmem : last ∈ route := List.mem_of_getLast? hlast
  exact ⟨last.record, .inr ⟨file, hfile, start, hstart, target, htarget, route, hroute, last, hmem,
    rfl⟩, (hroute.stands last hmem).2.1, hspecifier, horigin⟩

theorem tellsApart_build (h : p.PlacesTellApart d maxDepth) :
    (TraceIndex.build d maxDepth p).TellsApart p := by
  intro file hfile r hr hreexport chain hchain hsame
  obtain ⟨s, hs, hsreexport, hspecifier, horigin⟩ := exists_sees_of_mem_chains hchain
  rw [horigin] at hsame
  rw [hspecifier]
  exact h s r hs (.inl ⟨file, hfile, hr⟩) hsreexport hreexport hsame

/-- **The files of a project are thinned** by what does not concern the component. -/
theorem thinsTo_view (d : Disk) (c : Component) (p : Project) :
    (p.view d).ThinsTo c ((p.concerning c).view d) where
  imports file := by
    have hfind : ((p.concerning c).files.reverse.find? fun f => f.path.normalize = file.normalize)
        = (p.files.reverse.find? fun f => f.path.normalize = file.normalize).map
            (ParsedFile.concerning c) := by
      rw [concerning, ← List.map_reverse, List.find?_map]
      rfl
    rw [imports_view, imports_view, hfind]
    cases p.files.reverse.find? fun f => f.path.normalize = file.normalize with
    | none => exact .inl rfl
    | some found => exact .inr rfl
  resolve := rfl
  display := rfl

/-- An import that is followed concerns every component. -/
theorem followed_concerning (c : Component) (file : ParsedFile) :
    (file.concerning c).followed = file.followed := by
  have hconcerns : ∀ r, TraceIndex.isTraced r = true → c.concerns r = true := by
    intro r hr
    simp only [TraceIndex.isTraced, Bool.and_eq_true] at hr
    simp [Component.concerns, hr.1.1, hr.1.2]
  show (file.imports.filter c.concerns).filter TraceIndex.isTraced = file.imports.filter _
  rw [List.filter_filter]
  refine List.filter_congr fun r _ => ?_
  cases hr : TraceIndex.isTraced r with
  | true => exact hconcerns r hr
  | false => rfl

/-- **An import has the same outcome for the component.** -/
theorem sameFor_outcome (d : Disk) (maxDepth : Nat) (p : Project) (c : Component)
    (file : ParsedFile) (r : ImportRecord) :
    TraceOutcome.SameFor c (p.outcome d maxDepth file r)
      ((p.concerning c).outcome d maxDepth (file.concerning c) r) :=
  Trace.sameFor_trace (p.thinsTo_view d c) maxDepth r file.path

/-- The chains that are found without the other records are found with them too. -/
theorem mem_chains_of_concerning {chain : ReexportChain}
    (h : chain ∈ (TraceIndex.build d maxDepth (p.concerning c)).chains) :
    chain ∈ (TraceIndex.build d maxDepth p).chains := by
  rw [TraceIndex.chains_build] at h ⊢
  obtain ⟨thin, hthin, h⟩ := List.mem_flatMap.1 h
  obtain ⟨file, hfile, rfl⟩ := List.mem_map.1 hthin
  rw [followed_concerning] at h
  obtain ⟨r, hr, h⟩ := List.mem_flatMap.1 h
  exact List.mem_flatMap.2 ⟨file, hfile, List.mem_flatMap.2
    ⟨r, hr, (sameFor_outcome d maxDepth p c file r).sublist.subset h⟩⟩

/-- The chains that end at the component are found without the other records. -/
theorem mem_chains_concerning {chain : ReexportChain}
    (h : chain ∈ (TraceIndex.build d maxDepth p).chains)
    (hmatches : c.matchesModule chain.specifier = true) :
    chain ∈ (TraceIndex.build d maxDepth (p.concerning c)).chains := by
  rw [TraceIndex.chains_build] at h ⊢
  obtain ⟨file, hfile, h⟩ := List.mem_flatMap.1 h
  obtain ⟨r, hr, h⟩ := List.mem_flatMap.1 h
  have hmem : chain ∈ (p.outcome d maxDepth file r).chainsTo c :=
    List.mem_filter.2 ⟨h, hmatches⟩
  rw [← (sameFor_outcome d maxDepth p c file r).chainsTo] at hmem
  refine List.mem_flatMap.2 ⟨file.concerning c, List.mem_map_of_mem hfile, ?_⟩
  rw [followed_concerning]
  exact List.mem_flatMap.2 ⟨r, hr, (List.mem_filter.1 hmem).1⟩

/-- **The warnings of traces are the same.** -/
theorem warnings_concerning (d : Disk) (maxDepth : Nat) (p : Project) (c : Component) :
    (TraceIndex.build d maxDepth (p.concerning c)).warnings
      = (TraceIndex.build d maxDepth p).warnings := by
  rw [TraceIndex.warnings_build, TraceIndex.warnings_build]
  show (distinctBy _ ((p.files.map _).flatMap _)).map _ = _
  rw [List.flatMap_map]
  congr 2
  refine List.flatMap_congr fun file _ => ?_
  rw [followed_concerning]
  refine List.flatMap_congr fun r _ => ?_
  have hsame := sameFor_outcome d maxDepth p c file r
  rw [TraceIndex.noted, TraceIndex.noted, TraceOutcome.cycleWarnings, TraceOutcome.cycleWarnings,
    hsame.warnings, hsame.cycles]

end Project

namespace Verdict

variable {d : Disk} {maxDepth : Nat} {p : Project} {c : Component}

/-- A record counts as a direct import with and without the other records. -/
theorem isDirect_concerning
    (hapart : (TraceIndex.build d maxDepth p).TellsApart p) {file : ParsedFile}
    (hfile : file ∈ p.files) {r : ImportRecord} (hr : r ∈ file.imports) :
    isDirect c (TraceIndex.build d maxDepth (p.concerning c)) r
      = isDirect c (TraceIndex.build d maxDepth p) r := by
  rw [Bool.eq_iff_iff, isDirect_iff, isDirect_iff]
  refine and_congr_right fun hnames => not_congr (and_congr_right fun hreexport => ?_)
  constructor
  · rintro ⟨chain, hchain, hsame⟩
    exact ⟨chain, Project.mem_chains_of_concerning hchain, hsame⟩
  · rintro ⟨chain, hchain, hsame⟩
    -- the chain ends at the module of the record, which is the component
    have hspecifier := hapart file hfile r hr hreexport chain hchain hsame
    exact ⟨chain, Project.mem_chains_concerning hchain (hspecifier ▸ hnames.2), hsame⟩

theorem concerns_of_isDirect {t : TraceIndex} {r : ImportRecord} (h : isDirect c t r = true) :
    c.concerns r = true := by
  obtain ⟨⟨hvalue, hmatches⟩, -⟩ := isDirect_iff.1 h
  simp [Component.concerns, hvalue, hmatches]

/-- **The direct evidence is the same.** -/
theorem directEvidence_concerning (hapart : (TraceIndex.build d maxDepth p).TellsApart p) :
    directEvidence c (p.concerning c) (TraceIndex.build d maxDepth (p.concerning c))
      = directEvidence c p (TraceIndex.build d maxDepth p) := by
  unfold directEvidence
  show ((p.files.map _).zipIdx).flatMap _ = _
  rw [List.zipIdx_map, List.flatMap_map]
  refine List.flatMap_congr fun (file, i) hfile => ?_
  have hmem : file ∈ p.files := List.mem_of_getElem? (List.mem_zipIdx_iff_getElem?.1 hfile)
  show ((file.imports.filter c.concerns).filter _).map _ = _
  rw [List.filter_filter]
  refine congrArg (List.map _) (List.filter_congr fun r hr => ?_)
  rw [isDirect_concerning hapart hmem hr]
  cases hdirect : isDirect c (TraceIndex.build d maxDepth p) r with
  | true => rw [concerns_of_isDirect hdirect]; rfl
  | false => rfl

/-- **The evidence of chains is the same.** -/
theorem chainEvidence_concerning (d : Disk) (maxDepth : Nat) (p : Project) (c : Component) :
    chainEvidence c (p.concerning c) (TraceIndex.build d maxDepth (p.concerning c))
      = chainEvidence c p (TraceIndex.build d maxDepth p) := by
  rw [chainEvidence_build, chainEvidence_build]
  show ((p.files.map _).zipIdx).flatMap _ = _
  rw [List.zipIdx_map, List.flatMap_map]
  refine List.flatMap_congr fun (file, i) _ => ?_
  show (file.concerning c).followed.flatMap _ = _
  rw [Project.followed_concerning]
  refine List.flatMap_congr fun r _ => ?_
  exact congrArg (List.map _) (Project.sameFor_outcome d maxDepth p c file r).chainsTo

theorem dynamicWarnings_concerning (p : Project) (c : Component) (e : Evidence) :
    dynamicWarnings (p.concerning c) e = dynamicWarnings p e := by
  unfold dynamicWarnings
  show ((p.files.map _).zipIdx).flatMap _ = _
  rw [List.zipIdx_map, List.flatMap_map]
  rfl

theorem hasDynamicImports_concerning (p : Project) (c : Component) :
    (p.concerning c).hasDynamicImports = p.hasDynamicImports := by
  unfold Project.hasDynamicImports
  show (p.files.map _).any _ = _
  rw [List.any_map]
  rfl

theorem firstComputedImport?_concerning (p : Project) (c : Component) :
    (p.concerning c).firstComputedImport? = p.firstComputedImport? := by
  unfold Project.firstComputedImport?
  show (((p.files.map _).flatMap _).find? _).map _ = _
  rw [List.flatMap_map]
  rfl

/-- **The verdict that evidence leads to is the same**, if the warnings of traces are. -/
theorem ofEvidence_concerning {t t' : TraceIndex} (hwarnings : t'.warnings = t.warnings)
    (p : Project) (c : Component) (e : Evidence) :
    ofEvidence c (p.concerning c) t' e = ofEvidence c p t e := by
  have hprogress : progressText (p.concerning c) = progressText p := by
    simp [progressText, Project.concerning]
  have hconclude : conclude (p.concerning c) e = conclude p e := by
    rw [conclude, conclude, hasDynamicImports_concerning]
    rfl
  have hall : ∀ status, warnings c (p.concerning c) t' e status = warnings c p t e status := by
    intro status
    simp only [warnings, hiddenWarnings, partialWarnings, dynamicWarnings_concerning,
      hasDynamicImports_concerning, firstComputedImport?_concerning, hprogress, hwarnings]
    rfl
  have hnotes : ∀ status vulnerable,
      notes c (p.concerning c) status vulnerable = notes c p status vulnerable := by
    intro status vulnerable
    simp only [notes, hprogress]
  simp only [ofEvidence, hconclude, hall, hnotes]

/-- **Records that do not concern a component do not matter to its verdict.**  For every
disk, options and project in which re-exports of different modules are never seen at the
same place: without its records of types only, and its records that name neither a file
nor the component, the whole verdict on the component is the same. -/
theorem classify_concerning (d : Disk) (o : Options) (p : Project) (c : Component)
    (hplaces : p.PlacesTellApart d o.maxReexportDepth) :
    classify (p.concerning c) (Analysis.traces d o (p.concerning c)) c
      = classify p (Analysis.traces d o p) c := by
  have hevidence : evidence c (p.concerning c) (Analysis.traces d o (p.concerning c))
      = evidence c p (Analysis.traces d o p) := by
    unfold evidence Analysis.traces
    rw [directEvidence_concerning (Project.tellsApart_build hplaces), chainEvidence_concerning]
  have hwarnings : (Analysis.traces d o (p.concerning c)).warnings
      = (Analysis.traces d o p).warnings := Project.warnings_concerning d o.maxReexportDepth p c
  unfold classify
  rw [hevidence, ofEvidence_concerning hwarnings]
  cases hfiles : p.files with
  | nil => simp [Project.concerning, hfiles, nothingParsed, skippedWarnings]
  | cons file files => simp [Project.concerning, hfiles]

/-- The hypothesis is satisfiable where records are left out and re-exports lead in a
circle: `/a.ts` uses `x` of `/b.ts`, types of `q` and all of `r`, and `/b.ts` forwards `x`
of `q`, `y` of `r` and everything of `/a.ts`. -/
theorem classify_concerning_circle :
    let d : Disk :=
      ⟨.dir [("a.ts", .file (.text "")), ("b.ts", .file (.text ""))], [], none, none⟩
    let a : ParsedFile := ⟨⟨"/a.ts"⟩, ⟨"a.ts"⟩,
      [⟨"./b", .named, [⟨"x", "x"⟩], false, ⟨⟨"a.ts"⟩, 1, 1, ""⟩⟩,
        ⟨"q", .typeOnly, [⟨"T", "T"⟩], true, ⟨⟨"a.ts"⟩, 2, 1, ""⟩⟩,
        ⟨"r", .whole, [⟨"*", "r"⟩], false, ⟨⟨"a.ts"⟩, 3, 1, ""⟩⟩],
      { calledNames := NameSet.ofList ["x"] }⟩
    let b : ParsedFile := ⟨⟨"/b.ts"⟩, ⟨"b.ts"⟩,
      [⟨"q", .reexport, [⟨"x", "x"⟩], false, ⟨⟨"b.ts"⟩, 1, 1, ""⟩⟩,
        ⟨"r", .reexport, [⟨"y", "y"⟩], false, ⟨⟨"b.ts"⟩, 2, 1, ""⟩⟩,
        ⟨"./a", .reexportAll, [], false, ⟨⟨"b.ts"⟩, 3, 1, ""⟩⟩], {}⟩
    let p : Project := ⟨⟨"/"⟩, [a, b], [], 2, true⟩
    let c : Component := { name := "q" }
    p.PlacesTellApart d 5 ∧ (p.concerning c).files.map (·.imports.length) = [1, 2] ∧
      classify (p.concerning c) (Analysis.traces d {} (p.concerning c)) c
        = classify p (Analysis.traces d {} p) c := by
  intro d a b p c
  have hroutes : ∀ file ∈ p.files, ∀ start ∈ file.followed,
      ∀ target ∈ d.resolve? start.specifier file.path,
        ∀ route ∈ Trace.routes (p.view d) 5 [file.path.normalize] (Flows.requestedBy start) target,
          ∀ h ∈ route, h.record ∈ a.imports ++ b.imports := by
    decide +kernel
  have hseen : ∀ r, p.Sees d 5 r → r ∈ a.imports ++ b.imports := by
    rintro r (⟨file, hfile, hr⟩ |
      ⟨file, hfile, start, hstart, target, htarget, route, hroute, h, hh, rfl⟩)
    · simp only [p, List.mem_cons, List.not_mem_nil, or_false] at hfile
      rcases hfile with rfl | rfl
      · exact List.mem_append_left _ hr
      · exact List.mem_append_right _ hr
    · exact hroutes file hfile start hstart target htarget route (Trace.mem_routes.2 hroute) h hh
  have hplaces : p.PlacesTellApart d 5 := by
    have hapart : ∀ r ∈ a.imports ++ b.imports, ∀ s ∈ a.imports ++ b.imports,
        r.isReexport = true → s.isReexport = true → r.location.same s.location = true →
          r.specifier = s.specifier := by decide
    exact fun r s hr hs => hapart r (hseen r hr) s (hseen s hs)
  exact ⟨hplaces, by decide, classify_concerning d {} p c hplaces⟩

end Verdict
end DependencyUse
