/-
# Searches in thinned files

A record concerns a component if it is not of types only, and names a file or the
component.  The files of a view are thinned by taking out records that do not.

| record taken out | what it would add to a search |
| --- | --- |
| of types only, or no re-export | nothing |
| a re-export of another module | nothing, or a chain that does not end at the component |

So a search in thinned files passes the same files and gives the same warnings.  It finds
some of the chains, and among them all that end at the component (`sameFor_visit`).
-/

import DependencyUse.Component
import DependencyUse.Proofs.Reexport.Search

namespace DependencyUse

/-- The record is not of types only, and names a file of the project or the component. -/
def Component.concerns (c : Component) (r : ImportRecord) : Bool :=
  !r.typeOnly && (r.isRelative || c.matchesModule r.specifier)

/-- The chains of an outcome that end at the component. -/
def TraceOutcome.chainsTo (o : TraceOutcome) (c : Component) : List ReexportChain :=
  o.chains.filter fun chain => c.matchesModule chain.specifier

/-- The two outcomes are the same for the component, and all chains of the second are
chains of the first. -/
structure TraceOutcome.SameFor (c : Component) (o thin : TraceOutcome) : Prop where
  warnings : thin.warnings = o.warnings
  cycles : thin.cycles = o.cycles
  chainsTo : thin.chainsTo c = o.chainsTo c
  sublist : thin.chains.Sublist o.chains

namespace TraceOutcome.SameFor

variable {c : Component} {o o' thin thin' : TraceOutcome}

theorem refl (o : TraceOutcome) : SameFor c o o :=
  ⟨rfl, rfl, rfl, .refl _⟩

theorem append (h : SameFor c o thin) (h' : SameFor c o' thin') :
    SameFor c (o ++ o') (thin ++ thin') where
  warnings := congrArg₂ (· ++ ·) h.warnings h'.warnings
  cycles := congrArg₂ (· ++ ·) h.cycles h'.cycles
  chainsTo := by
    show (thin.chains ++ thin'.chains).filter _ = (o.chains ++ o'.chains).filter _
    rw [List.filter_append, List.filter_append]
    exact congrArg₂ (· ++ ·) h.chainsTo h'.chainsTo
  sublist := h.sublist.append h'.sublist

/-- Chains that do not end at the component can be left out. -/
theorem skip (chains : List ReexportChain)
    (hother : ∀ chain ∈ chains, c.matchesModule chain.specifier = false) :
    SameFor c { chains } {} where
  warnings := rfl
  cycles := rfl
  chainsTo := (List.filter_eq_nil_iff.2 fun chain hchain => by simp [hother chain hchain]).symm
  sublist := List.nil_sublist _

/-- **Records that do not concern the component can be left out**, if nothing but chains
to other modules comes of them. -/
theorem foldr {found foundThin : ImportRecord → TraceOutcome} {rs : List ImportRecord}
    (hsame : ∀ r ∈ rs, SameFor c (found r) (foundThin r))
    (hskip : ∀ r ∈ rs, c.concerns r = false → SameFor c (found r) {}) :
    SameFor c (rs.foldr (fun r rest => found r ++ rest) {})
      ((rs.filter c.concerns).foldr (fun r rest => foundThin r ++ rest) {}) := by
  induction rs with
  | nil => exact refl _
  | cons r rs ih =>
    rw [List.forall_mem_cons] at hsame hskip
    have hrest := ih hsame.2 hskip.2
    cases hr : c.concerns r with
    | true =>
      rw [List.filter_cons_of_pos hr]
      exact hsame.1.append hrest
    | false =>
      rw [List.filter_cons_of_neg (by simp [hr])]
      exact (hskip.1 hr).append hrest

/-- The same records, each with the same outcome. -/
theorem foldr_same {found foundThin : ImportRecord → TraceOutcome} {rs : List ImportRecord}
    (hsame : ∀ r ∈ rs, SameFor c (found r) (foundThin r)) :
    SameFor c (rs.foldr (fun r rest => found r ++ rest) {})
      (rs.foldr (fun r rest => foundThin r ++ rest) {}) := by
  induction rs with
  | nil => exact refl _
  | cons r rs ih =>
    rw [List.forall_mem_cons] at hsame
    exact hsame.1.append (ih hsame.2)

end TraceOutcome.SameFor

/-- The second view has the files of the first, some of them thinned. -/
structure View.ThinsTo (c : Component) (view thin : View Id) : Prop where
  imports : ∀ file, Id.run (thin.imports file) = Id.run (view.imports file) ∨
    Id.run (thin.imports file) = (Id.run (view.imports file)).filter c.concerns
  resolve : thin.resolve = view.resolve
  display : thin.display = view.display

namespace Trace

/-- A search that comes to a new file goes along its records in order. -/
theorem visit_succ_records (view : View Id) (maxDepth : Nat) (importer : Path) (room : Nat)
    (chain : List Path) (star : Bool) (flows : Flows) (via : Location) (target : Path)
    (hnew : target.normalize ∉ importer :: chain) :
    Id.run (visit view maxDepth importer (room + 1) chain star flows via target)
      = ((Id.run (view.imports target.normalize)).filter follows).foldr
          (fun r rest => hopOutcome view maxDepth importer room chain star flows
            ⟨target.normalize, 0, r⟩ ++ rest) {} := by
  rw [visit_succ _ _ _ _ _ _ _ _ _ hnew, ← map_record_hops, List.foldr_map]
  refine List.foldr_ext _ _ _ fun h hh rest => ?_
  simp only [hopOutcome, ← (mem_hops.1 hh).1]

/-- A re-export that does not concern the component adds nothing that does. -/
theorem sameFor_of_not_concerns {c : Component} {view : View Id} {maxDepth : Nat}
    {importer : Path} {room : Nat} {chain : List Path} {star : Bool} {flows : Flows} {file : Path}
    {r : ImportRecord} (hfollows : follows r = true) (hr : c.concerns r = false) :
    TraceOutcome.SameFor c
      (hopOutcome view maxDepth importer room chain star flows ⟨file, 0, r⟩) {} := by
  have hother : r.isRelative = false ∧ c.matchesModule r.specifier = false := by
    rw [follows, Bool.and_eq_true] at hfollows
    simpa [Component.concerns, hfollows.2] using hr
  rw [hopOutcome]
  cases flows.forward r with
  | none => exact .refl _
  | some passed =>
    simp only [hother.1]
    exact .skip _ (by simp [chainFor, hother.2])

/-- **A search in thinned files is the same for the component.** -/
theorem sameFor_visit {c : Component} {view thin : View Id} (h : view.ThinsTo c thin)
    (maxDepth : Nat) (importer : Path) (room : Nat) (chain : List Path) (star : Bool)
    (flows : Flows) (via : Location) (target : Path) :
    TraceOutcome.SameFor c
      (Id.run (visit view maxDepth importer room chain star flows via target))
      (Id.run (visit thin maxDepth importer room chain star flows via target)) := by
  induction room generalizing chain star flows via target with
  | zero =>
    by_cases hold : target.normalize ∈ importer :: chain
    · rw [visit_of_mem _ _ _ _ _ _ _ _ _ hold, visit_of_mem _ _ _ _ _ _ _ _ _ hold, h.display]
      exact .refl _
    · rw [visit_zero _ _ _ _ _ _ _ _ hold, visit_zero _ _ _ _ _ _ _ _ hold, h.display]
      exact .refl _
  | succ room ih =>
    by_cases hold : target.normalize ∈ importer :: chain
    · rw [visit_of_mem _ _ _ _ _ _ _ _ _ hold, visit_of_mem _ _ _ _ _ _ _ _ _ hold, h.display]
      exact .refl _
    · rw [visit_succ_records _ _ _ _ _ _ _ _ _ hold, visit_succ_records _ _ _ _ _ _ _ _ _ hold]
      -- a hop has the same outcome in both views, by what is known of less room
      have hsame : ∀ r, TraceOutcome.SameFor c
          (hopOutcome view maxDepth importer room chain star flows ⟨target.normalize, 0, r⟩)
          (hopOutcome thin maxDepth importer room chain star flows ⟨target.normalize, 0, r⟩) := by
        intro r
        rw [hopOutcome, hopOutcome, h.display, h.resolve]
        cases flows.forward r with
        | none => exact .refl {}
        | some passed =>
          obtain ⟨next, isStar⟩ := passed
          dsimp only
          split
          · cases Id.run (view.resolve r.specifier target.normalize) with
            | none => exact .refl {}
            | some goal => exact ih _ _ _ _ _
          · exact .refl _
      rcases h.imports target.normalize with himports | himports
      · rw [himports]
        exact .foldr_same fun r _ => hsame r
      · rw [himports, List.filter_comm]
        exact .foldr (fun r _ => hsame r)
          fun r hr hnot => sameFor_of_not_concerns (List.mem_filter.1 hr).2 hnot

/-- An import is followed from the file that it names, if it names one. -/
theorem trace_eq_match (view : View Id) (maxDepth : Nat) (r : ImportRecord) (source : Path) :
    Id.run (trace view maxDepth r source)
      = if !r.isRelative || r.typeOnly then {}
        else match Id.run (view.resolve r.specifier source) with
          | none => {}
          | some target => Id.run (visit view maxDepth source.normalize maxDepth [] false
              (Flows.requestedBy r) r.location target) := by
  rw [trace_eq]
  split
  · rfl
  · show Id.run (match Id.run (view.resolve r.specifier source) with
      | none => pure {}
      | some target => visit view maxDepth source.normalize maxDepth [] false
          (Flows.requestedBy r) r.location target) = _
    cases Id.run (view.resolve r.specifier source) <;> rfl

/-- **An import is followed to the same for the component in thinned files.** -/
theorem sameFor_trace {c : Component} {view thin : View Id} (h : view.ThinsTo c thin)
    (maxDepth : Nat) (r : ImportRecord) (source : Path) :
    TraceOutcome.SameFor c (Id.run (trace view maxDepth r source))
      (Id.run (trace thin maxDepth r source)) := by
  rw [trace_eq_match, trace_eq_match, h.resolve]
  split
  · exact .refl _
  · cases Id.run (view.resolve r.specifier source) with
    | none => exact .refl _
    | some target => exact sameFor_visit h _ _ _ _ _ _ _ _

end Trace
end DependencyUse
