/-
# The depth bound only cuts

A search that may pass more files does all that a search with a tighter bound does, in the
same order, and goes on where the other one stops for want of room.

| where the tight search | the wide search |
| --- | --- |
| comes back to a file | comes back to it too |
| finds a chain | finds it too |
| has no room for a file | finds only chains that are too long for the tight one |

So the tight search has of the chains of the wide one those that fit (`Cuts`), and if it
never wants room there is no difference at all.  Both are kept from one hop to the next.
-/

import DependencyUse.Proofs.Reexport.Thinning

namespace DependencyUse

/-- The second outcome has those chains of the first that pass at most `depth` files, and it
is the first one if nothing was cut. -/
structure TraceOutcome.Cuts (depth : Nat) (wide tight : TraceOutcome) : Prop where
  chains : tight.chains = wide.chains.filter fun c => c.depth ≤ depth
  whole : (∀ w ∈ tight.warnings, w.code ≠ .maxDepthReached) → tight = wide

namespace TraceOutcome.Cuts

variable {depth : Nat} {wide tight wide' tight' : TraceOutcome}

/-- An outcome whose chains all fit is not cut. -/
theorem refl {o : TraceOutcome} (h : ∀ c ∈ o.chains, c.depth ≤ depth) : Cuts depth o o where
  chains := (List.filter_eq_self.2 fun c hc => by simpa using h c hc).symm
  whole _ := rfl

theorem append (h : Cuts depth wide tight) (h' : Cuts depth wide' tight') :
    Cuts depth (wide ++ wide') (tight ++ tight') where
  chains := by
    show tight.chains ++ tight'.chains = (wide.chains ++ wide'.chains).filter _
    rw [List.filter_append, ← h.chains, ← h'.chains]
  whole hnone := by
    have hall : ∀ w ∈ tight.warnings ++ tight'.warnings, w.code ≠ .maxDepthReached := hnone
    rw [List.forall_mem_append] at hall
    rw [h.whole hall.1, h'.whole hall.2]

end TraceOutcome.Cuts

namespace Trace

/-- The chains of a search are longer than the way before it. -/
theorem length_lt_of_mem_chains_visit {view : View Id} {maxDepth : Nat} {importer : Path}
    {room : Nat} {chain : List Path} {star : Bool} {flows : Flows} {via : Location} {target : Path}
    {c : ReexportChain}
    (hc : c ∈ (Id.run (visit view maxDepth importer room chain star flows via target)).chains) :
    chain.length < c.depth := by
  obtain ⟨route, hroute, hchain⟩ := exists_route_of_mem_chains_visit hc
  have hpos : 0 < route.length := by
    rw [List.length_pos_iff]
    rintro rfl
    exact not_isRoute_nil hroute
  rw [hchain.depth]
  omega

/-- **A search with less room is a cut of one with more**, whatever bounds they name. -/
theorem cuts_visit (view : View Id) (maxDepth deeper : Nat) (importer : Path) (room more : Nat)
    (chain : List Path) (star : Bool) (flows : Flows) (via : Location) (target : Path) :
    TraceOutcome.Cuts (chain.length + room)
      (Id.run (visit view deeper importer (room + more) chain star flows via target))
      (Id.run (visit view maxDepth importer room chain star flows via target)) := by
  induction room generalizing chain star flows via target with
  | zero =>
    by_cases hold : target.normalize ∈ importer :: chain
    · rw [visit_of_mem _ _ _ _ _ _ _ _ _ hold, visit_of_mem _ _ _ _ _ _ _ _ _ hold]
      exact .refl (by simp [circular])
    · rw [visit_zero _ _ _ _ _ _ _ _ hold]
      constructor
      · -- every chain of the wide search has a file more than fit
        refine (List.filter_eq_nil_iff.2 fun c hc => ?_).symm
        have hlong := length_lt_of_mem_chains_visit hc
        simpa using hlong
      · intro hnone
        exact absurd rfl (hnone _ (List.mem_singleton_self _))
  | succ room ih =>
    by_cases hold : target.normalize ∈ importer :: chain
    · rw [visit_of_mem _ _ _ _ _ _ _ _ _ hold, visit_of_mem _ _ _ _ _ _ _ _ _ hold]
      exact .refl (by simp [circular])
    · have hroom : room + 1 + more = room + more + 1 := by omega
      rw [hroom, visit_succ _ _ _ _ _ _ _ _ _ hold, visit_succ _ _ _ _ _ _ _ _ _ hold]
      refine List.foldr_rel (.refl (by simp)) fun h _ wide tight hrest => .append ?_ hrest
      rw [hopOutcome, hopOutcome]
      cases flows.forward h.record with
      | none => exact .refl (by simp)
      | some passed =>
        obtain ⟨next, isStar⟩ := passed
        dsimp only
        split
        · cases Id.run (view.resolve h.record.specifier h.file) with
          | none => exact .refl (by simp)
          | some goal =>
            have hcut := ih (chain ++ [h.file]) (star || isStar) next h.record.location goal
            rw [List.length_append, List.length_singleton] at hcut
            have hdepth : chain.length + (room + 1) = chain.length + 1 + room := by omega
            rw [hdepth]
            exact hcut
        · exact .refl (by simp [chainFor])

/-- **The depth bound only cuts.**  For every view, import and importer, and two bounds of
which the second is no tighter: the chains with the first bound are those of the second that
pass no more files than it allows, in the same order and with the same contents.  If with the
first bound no search wanted room, then the whole outcome is the same. -/
theorem trace_cut_by_depth (view : View Id) (maxDepth deeper : Nat) (hle : maxDepth ≤ deeper)
    (r : ImportRecord) (source : Path) :
    (Id.run (trace view maxDepth r source)).chains
      = (Id.run (trace view deeper r source)).chains.filter (fun c => c.depth ≤ maxDepth) ∧
    ((∀ w ∈ (Id.run (trace view maxDepth r source)).warnings, w.code ≠ .maxDepthReached) →
      Id.run (trace view deeper r source) = Id.run (trace view maxDepth r source)) := by
  have hcuts : TraceOutcome.Cuts maxDepth (Id.run (trace view deeper r source))
      (Id.run (trace view maxDepth r source)) := by
    rw [trace_eq_match, trace_eq_match]
    split
    · exact .refl (by simp)
    · cases Id.run (view.resolve r.specifier source) with
      | none => exact .refl (by simp)
      | some target =>
        obtain ⟨more, rfl⟩ := Nat.exists_eq_add_of_le hle
        simpa using cuts_visit view maxDepth (maxDepth + more) source.normalize maxDepth more []
          false (Flows.requestedBy r) r.location target
  exact ⟨hcuts.chains, fun hnone => (hcuts.whole hnone).symm⟩

/-- The hypotheses are satisfiable where a bound cuts and where it does not: `/a.ts` imports `x`
from `/b.ts`, which forwards `x` of `p` and all of `/c.ts`; that forwards `x` of `q` and all of
`/b.ts`.  One file is too few for the chain to `q`; two are enough for all there is. -/
theorem trace_cut_by_depth_circle :
    let r := recordAt "/a.ts" 1 .named "./b" [⟨"x", "x"⟩]
    let view := tableView
      [(⟨"/b.ts"⟩, [recordAt "/b.ts" 1 .reexport "p" [⟨"x", "x"⟩],
          recordAt "/b.ts" 2 .reexportAll "./c" []]),
        (⟨"/c.ts"⟩, [recordAt "/c.ts" 1 .reexport "q" [⟨"x", "x"⟩],
          recordAt "/c.ts" 2 .reexportAll "./b" []])]
      [(("./b", ⟨"/a.ts"⟩), ⟨"/b.ts"⟩), (("./c", ⟨"/b.ts"⟩), ⟨"/c.ts"⟩),
        (("./b", ⟨"/c.ts"⟩), ⟨"/b.ts"⟩)]
    let outcome (depth : Nat) := Id.run (trace view depth r ⟨"/a.ts"⟩)
    1 ≤ 3 ∧ 2 ≤ 3 ∧ (∀ w ∈ (outcome 2).warnings, w.code ≠ .maxDepthReached) ∧
      (outcome 1).chains.map ReexportChain.specifier = ["p"] ∧
      (outcome 3).chains.map ReexportChain.specifier = ["p", "q"] ∧
      (outcome 3).cycles = [[⟨"/b.ts"⟩, ⟨"/c.ts"⟩]] ∧
      (outcome 1).chains = (outcome 3).chains.filter (fun c => c.depth ≤ 1) ∧
      outcome 3 = outcome 2 := by
  intro r view outcome
  have hnone : ∀ w ∈ (outcome 2).warnings, w.code ≠ .maxDepthReached := by decide +kernel
  exact ⟨by decide, by decide, hnone, by decide +kernel, by decide +kernel, by decide +kernel,
    (trace_cut_by_depth view 1 3 (by decide) r ⟨"/a.ts"⟩).1,
    (trace_cut_by_depth view 2 3 (by decide) r ⟨"/a.ts"⟩).2 hnone⟩

end Trace
end DependencyUse
