/-
# The traces of a project, import by import

The index of a project keeps the outcomes that are not empty, by the places of their
imports.  What is read out of it is said here without the index and without places:

| of the index | for each file, and each import of it that is followed |
| --- | --- |
| the chains | those of its outcome |
| the warnings | those of its outcome, each once in the whole project |
| the evidence of chains | that of the chains of its outcome that end at the component |
| the used members through chains | those of its bindings, through the same chains |

An empty outcome that is left out has neither chains nor warnings, so nothing is lost
(`flatMap_traced_build`).
-/

import DependencyUse.Proofs.Reexport.Memory
import DependencyUse.Proofs.Reexport.Thinning
import DependencyUse.Proofs.Verdict.Members

namespace DependencyUse

/-- What following an import of a file yields. -/
def Project.outcome (d : Disk) (maxDepth : Nat) (p : Project) (file : ParsedFile)
    (r : ImportRecord) : TraceOutcome :=
  Id.run (Trace.trace (p.view d) maxDepth r file.path)

/-- The imports of a file that are followed. -/
def ParsedFile.followed (file : ParsedFile) : List ImportRecord :=
  file.imports.filter TraceIndex.isTraced

/-- Places do not matter to what is made of the elements. -/
theorem flatMap_zipIdx_filter {α β : Type} (keep : α → Bool) (f : α → List β) (xs : List α)
    (start : Nat) :
    ((xs.zipIdx start).filter fun (x, _) => keep x).flatMap (fun (x, _) => f x)
      = (xs.filter keep).flatMap f := by
  conv_rhs => rw [← List.zipIdx_map_fst start xs, List.filter_map, List.flatMap_map]
  rfl

namespace TraceIndex

theorem flatMap_filterMap_kept? {β : Type} (view : View Id) (maxDepth : Nat)
    {piece : TracedImport → List β} (hempty : ∀ i j o, o.isEmpty = true → piece ⟨i, j, o⟩ = [])
    (targets : List (Nat × Nat × Path × ImportRecord)) :
    (targets.filterMap (kept? view maxDepth)).flatMap piece
      = targets.flatMap fun (i, j, path, r) =>
          piece ⟨i, j, Id.run (Trace.trace view maxDepth r path)⟩ := by
  induction targets with
  | nil => rfl
  | cons target targets ih =>
    obtain ⟨i, j, path, r⟩ := target
    rw [List.flatMap_cons, ← ih]
    cases hnone : (Id.run (Trace.trace view maxDepth r path)).isEmpty with
    | true =>
      rw [List.filterMap_cons_none (by simp [kept?, hnone])]
      exact (congrArg (· ++ _) (hempty i j _ hnone)).symm
    | false =>
      rw [List.filterMap_cons_some (b := ⟨i, j, _⟩) (by simp [kept?, hnone]; rfl)]
      rfl

/-- **What is made of the kept outcomes is made of all outcomes**, if nothing is made of
an empty one. -/
theorem flatMap_traced_build {β : Type} (d : Disk) (maxDepth : Nat) (p : Project)
    {piece : TracedImport → List β} (hempty : ∀ i j o, o.isEmpty = true → piece ⟨i, j, o⟩ = []) :
    (build d maxDepth p).traced.flatMap piece
      = p.files.zipIdx.flatMap fun (file, i) =>
          (file.imports.zipIdx.filter fun (r, _) => isTraced r).flatMap fun (r, j) =>
            piece ⟨i, j, p.outcome d maxDepth file r⟩ := by
  rw [build_eq]
  show (List.filterMap _ _).flatMap piece = _
  rw [flatMap_filterMap_kept? _ _ hempty, targets, List.flatMap_assoc]
  refine List.flatMap_congr fun (file, i) _ => ?_
  show (fileTargets i file).flatMap _ = _
  rw [fileTargets, List.flatMap_map]
  rfl

/-- The same, where places do not matter. -/
theorem flatMap_outcomes_build {β : Type} (d : Disk) (maxDepth : Nat) (p : Project)
    {piece : TraceOutcome → List β} (hempty : ∀ o, o.isEmpty = true → piece o = []) :
    (build d maxDepth p).traced.flatMap (fun traced => piece traced.outcome)
      = p.files.flatMap fun file =>
          file.followed.flatMap fun r => piece (p.outcome d maxDepth file r) := by
  rw [flatMap_traced_build d maxDepth p fun _ _ o ho => hempty o ho]
  conv_rhs => rw [← List.zipIdx_map_fst 0 p.files, List.flatMap_map]
  refine List.flatMap_congr fun ⟨file, i⟩ _ => ?_
  exact flatMap_zipIdx_filter isTraced (fun r => piece (p.outcome d maxDepth file r)) file.imports 0

theorem chains_of_isEmpty {o : TraceOutcome} (h : o.isEmpty = true) : o.chains = [] := by
  rw [TraceOutcome.isEmpty, Bool.and_eq_true] at h
  exact List.isEmpty_iff.1 h.1

theorem noted_of_isEmpty {o : TraceOutcome} (h : o.isEmpty = true) : noted o = [] := by
  rw [TraceOutcome.isEmpty, Bool.and_eq_true] at h
  rw [noted, TraceOutcome.cycleWarnings, List.isEmpty_iff.1 h.2]
  simp

/-- **The chains of a project** are those of its imports. -/
theorem chains_build (d : Disk) (maxDepth : Nat) (p : Project) :
    (build d maxDepth p).chains
      = p.files.flatMap fun file =>
          file.followed.flatMap fun r => (p.outcome d maxDepth file r).chains :=
  flatMap_outcomes_build d maxDepth p fun _ => chains_of_isEmpty

/-- **The warnings of a project** are those of its imports, each once. -/
theorem warnings_build (d : Disk) (maxDepth : Nat) (p : Project) :
    (build d maxDepth p).warnings
      = (distinctBy Noted.same (p.files.flatMap fun file =>
          file.followed.flatMap fun r => noted (p.outcome d maxDepth file r))).map
            Noted.warning := by
  rw [← flatMap_outcomes_build d maxDepth p fun _ => noted_of_isEmpty, build_eq]
  show warningsOf (List.map _ _) = _
  rw [warningsOf, List.flatMap_map]
  rfl

end TraceIndex

namespace Verdict

/-- **The evidence of chains** is that of the chains of the imports of a project. -/
theorem chainEvidence_build (d : Disk) (maxDepth : Nat) (p : Project) (c : Component) :
    chainEvidence c p (TraceIndex.build d maxDepth p)
      = p.files.zipIdx.flatMap fun (file, i) =>
          file.followed.flatMap fun r =>
            ((p.outcome d maxDepth file r).chainsTo c).map
              (Evidence.ofChain file.callGraph i r) := by
  have hempty : ∀ i j o, o.isEmpty = true → tracedEvidence c p ⟨i, j, o⟩ = [] := by
    intro i j o ho
    rw [tracedEvidence, TraceIndex.chains_of_isEmpty ho]
    split
    · rfl
    · split <;> rfl
  rw [chainEvidence, TraceIndex.flatMap_traced_build d maxDepth p hempty]
  refine List.flatMap_congr fun placed hfile => ?_
  obtain ⟨file, i⟩ := placed
  show _ = file.followed.flatMap _
  rw [ParsedFile.followed, ← flatMap_zipIdx_filter _ _ _ 0]
  refine List.flatMap_congr fun counted hr => ?_
  obtain ⟨r, j⟩ := counted
  have hplace : p.files[i]? = some file := List.mem_zipIdx_iff_getElem?.1 hfile
  have hrecord : file.imports[j]? = some r :=
    List.mem_zipIdx_iff_getElem?.1 (List.mem_filter.1 hr).1
  show tracedEvidence c p ⟨i, j, p.outcome d maxDepth file r⟩ = _
  simp only [tracedEvidence, hplace, hrecord]
  rfl

/-- **A member is used** by a binding of an import that names the component, or by a
binding whose name came through a chain that ends at it. -/
theorem mem_used_evidence {d : Disk} {maxDepth : Nat} {p : Project} {c : Component}
    {member : String} :
    member ∈ (evidence c p (TraceIndex.build d maxDepth p)).used ↔
      (∃ file ∈ p.files, ∃ r ∈ file.imports, Names c r ∧ r.isReexport = false ∧
        ∃ b ∈ r.names, member ∈ (Evidence.ofBinding c file.callGraph r b).used) ∨
      ∃ file ∈ p.files, ∃ r ∈ file.followed,
        ∃ chain ∈ (p.outcome d maxDepth file r).chainsTo c,
          ∃ b ∈ r.names, member ∈ (Evidence.ofChainBinding chain file.callGraph b).used := by
  rw [used_evidence, List.mem_append]
  refine or_congr ?_ ?_
  · rw [List.mem_flatMap]
    constructor
    · rintro ⟨e, he, hmember⟩
      obtain ⟨i, file, hfile, r, hr, hdirect, rfl⟩ := mem_directEvidence.1 he
      rw [Evidence.used_ofDirect] at hmember
      cases hreexport : r.isReexport with
      | true => simp [hreexport] at hmember
      | false =>
        rw [hreexport, if_neg Bool.false_ne_true] at hmember
        exact ⟨file, List.mem_of_getElem? hfile, r, hr, (isDirect_iff.1 hdirect).1, hreexport,
          List.mem_flatMap.1 hmember⟩
    · rintro ⟨file, hfile, r, hr, hnames, hreexport, hmember⟩
      obtain ⟨i, hi⟩ := List.getElem?_of_mem hfile
      have hdirect : isDirect c (TraceIndex.build d maxDepth p) r = true :=
        isDirect_iff.2 ⟨hnames, fun h => by rw [hreexport] at h; cases h.1⟩
      refine ⟨_, mem_directEvidence.2 ⟨i, file, hi, r, hr, hdirect, rfl⟩, ?_⟩
      rw [Evidence.used_ofDirect, hreexport, if_neg Bool.false_ne_true]
      exact List.mem_flatMap.2 hmember
  · rw [chainEvidence_build, List.flatMap_assoc, List.mem_flatMap]
    constructor
    · rintro ⟨⟨file, i⟩, hfile, hmember⟩
      simp only [List.mem_flatMap, List.mem_map] at hmember
      obtain ⟨_, ⟨r, hr, chain, hchain, rfl⟩, hmember⟩ := hmember
      rw [Evidence.used_ofChain, List.mem_flatMap] at hmember
      exact ⟨file, List.mem_of_getElem? (List.mem_zipIdx_iff_getElem?.1 hfile), r, hr, chain,
        hchain, hmember⟩
    · rintro ⟨file, hfile, r, hr, chain, hchain, hmember⟩
      obtain ⟨i, hi⟩ := List.getElem?_of_mem hfile
      refine ⟨(file, i), List.mem_zipIdx_iff_getElem?.2 hi, ?_⟩
      simp only [List.mem_flatMap, List.mem_map]
      refine ⟨_, ⟨r, hr, chain, hchain, rfl⟩, ?_⟩
      rw [Evidence.used_ofChain]
      exact List.mem_flatMap.2 hmember

end Verdict
end DependencyUse
