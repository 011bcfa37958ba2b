/-
# Names on a chain and names the importer asks for

A chain says which names of its module an importer can ask for.  Along most re-exports
those are names that the importer does ask for, whatever they are called on the way:

| re-export | names asked for afterwards |
| --- | --- |
| `export * from`, `export { a as b } from` | some of those before |
| `export * as n from 'm'` | some of those before |
| `export * as n from './f'` | every name of the file, as if everything were imported |

The last kind opens a file.  What the importer asks for is forgotten there: from the
last opening on, the names on the chain are those that come through if everything is
asked for (`Flows.along_eq_of_sinceOpening`).  So a chain answers only for names of the
importer exactly when no file is opened on the way, or when the names that come through
afterwards happen to be names of the importer as well.
-/

import DependencyUse.Proofs.Reexport.Search
import Mathlib.Data.Fintype.EquivFin

namespace DependencyUse

/-- `export * as n from './f'`: every name of the file is a name of `n`. -/
def ImportRecord.opens (r : ImportRecord) : Bool :=
  r.kind == .reexportAll && !r.names.isEmpty && r.isRelative

/-- The names that an import asks for. -/
def ImportRecord.requestedNames (r : ImportRecord) : List String :=
  r.names.map BoundName.imported

/-- The re-exports after the last one that opens a file, if there is one. -/
def sinceOpening : List ImportRecord → Option (List ImportRecord)
  | [] => none
  | r :: rs => (sinceOpening rs).or (if r.opens then some rs else none)

namespace Flows

/-- Some names, and all of them asked for. -/
def AskedFor (names : List String) : Flows → Prop
  | .all => False
  | .names flows => flows ≠ [] ∧ ∀ f ∈ flows, f.requested ∈ names

/-- A list of names that are followed is never empty. -/
def Proper : Flows → Prop
  | .all => True
  | .names flows => flows ≠ []

theorem ofHits_eq_some {hits : List NameFlow} {flows : Flows} :
    ofHits hits = some flows ↔ hits ≠ [] ∧ flows = .names hits := by
  unfold ofHits
  cases hits with
  | nil => simp
  | cons f fs => simp [eq_comm]

/-- **What a re-export lets through.**  All names through an `export *`, every name of a
file that it opens, and otherwise a list of hits that is not empty. -/
theorem forward_cases {flows next : Flows} {r : ImportRecord} {star : Bool}
    (h : flows.forward r = some (next, star)) :
    (r.isStar = true ∧ next = flows) ∨ (r.opens = true ∧ next = .all) ∨
      r.isStar = false ∧ r.opens = false ∧
        ∃ hits ≠ [], next = .names hits ∧
          (hits = flows.namedHits r.names ∨ ∃ name, hits = flows.wholeHits name) := by
  have hstar := isStar_of_forward h
  unfold forward at h
  split at h
  · rename_i hk
    split at h
    · cases h
      exact .inl ⟨hstar.symm, rfl⟩
    · rename_i whole hn
      obtain ⟨passed, hpassed, he⟩ := Option.map_eq_some_iff.1 h
      obtain ⟨hne, rfl⟩ := ofHits_eq_some.1 hpassed
      have hnames : r.names.isEmpty = false := by
        cases hr : r.names with
        | nil => simp [hr] at hn
        | cons b bs => rfl
      cases hrel : r.isRelative with
      | true =>
        simp only [hrel, if_true, Prod.mk.injEq] at he
        exact .inr (.inl ⟨by simp [ImportRecord.opens, hk, hnames, hrel], he.1.symm⟩)
      | false =>
        simp only [hrel, Bool.false_eq_true, if_false, Prod.mk.injEq] at he
        obtain ⟨rfl, rfl⟩ := he
        exact .inr (.inr ⟨hstar.symm, by simp [ImportRecord.opens, hrel], _, hne, rfl,
          .inr ⟨_, rfl⟩⟩)
  · rename_i hk
    obtain ⟨passed, hpassed, he⟩ := Option.map_eq_some_iff.1 h
    obtain ⟨hne, rfl⟩ := ofHits_eq_some.1 hpassed
    cases he
    exact .inr (.inr ⟨hstar.symm, by simp [ImportRecord.opens, hk], _, hne, rfl, .inl rfl⟩)
  · cases h

/-- A hit on names that are followed is asked for under the same name. -/
theorem requested_of_mem_hits {flows : List NameFlow} {names : List BoundName}
    {hits : List NameFlow} (h : hits = (Flows.names flows).namedHits names ∨
      ∃ name, hits = (Flows.names flows).wholeHits name) {f : NameFlow} (hf : f ∈ hits) :
    ∃ g ∈ flows, f.requested = g.requested := by
  rcases h with rfl | ⟨name, rfl⟩
  · obtain ⟨g, hg, hb⟩ := List.mem_flatMap.1 hf
    obtain ⟨b, -, rfl⟩ := List.mem_map.1 hb
    exact ⟨g, hg, rfl⟩
  · obtain ⟨g, hg, rfl⟩ := List.mem_map.1 hf
    exact ⟨g, List.mem_of_mem_filter hg, rfl⟩

/-- **A re-export that opens no file keeps to what is asked for.** -/
theorem AskedFor.forward {names : List String} {flows next : Flows} {r : ImportRecord}
    {star : Bool} (ha : flows.AskedFor names) (h : flows.forward r = some (next, star))
    (hopens : r.opens = false) : next.AskedFor names := by
  rcases forward_cases h with ⟨-, rfl⟩ | ⟨ho, -⟩ | ⟨-, -, hits, hne, rfl, hhits⟩
  · exact ha
  · rw [hopens] at ho; cases ho
  · cases flows with
    | all => exact absurd ha id
    | names flows =>
      refine ⟨hne, fun f hf => ?_⟩
      obtain ⟨g, hg, hfg⟩ := requested_of_mem_hits hhits hf
      rw [hfg]
      exact ha.2 g hg

theorem Proper.forward {flows next : Flows} {r : ImportRecord} {star : Bool}
    (hp : flows.Proper) (h : flows.forward r = some (next, star)) : next.Proper := by
  rcases forward_cases h with ⟨-, rfl⟩ | ⟨-, rfl⟩ | ⟨-, -, hits, hne, rfl, -⟩
  · exact hp
  · trivial
  · exact hne

/-- Names that come through re-exports come through the first one. -/
theorem along_cons_eq_some {flows passed : Flows} {r : ImportRecord} {rs : List ImportRecord} :
    flows.along (r :: rs) = some passed ↔
      ∃ next star, flows.forward r = some (next, star) ∧ next.along rs = some passed := by
  rw [along]
  cases flows.forward r with
  | none => simp
  | some result => obtain ⟨next, star⟩ := result; simp

/-- **Re-exports that open no file keep to what is asked for.** -/
theorem AskedFor.along {names : List String} {flows passed : Flows} {rs : List ImportRecord}
    (ha : flows.AskedFor names) (h : flows.along rs = some passed)
    (hopens : sinceOpening rs = none) : passed.AskedFor names := by
  induction rs generalizing flows with
  | nil => cases h; exact ha
  | cons r rs ih =>
    obtain ⟨next, star, hforward, hrest⟩ := along_cons_eq_some.1 h
    rw [sinceOpening, Option.or_eq_none_iff] at hopens
    obtain ⟨hnone, hr⟩ := hopens
    exact ih (ha.forward hforward (by simpa using hr)) hrest hnone

theorem Proper.along {flows passed : Flows} {rs : List ImportRecord} (hp : flows.Proper)
    (h : flows.along rs = some passed) : passed.Proper := by
  induction rs generalizing flows with
  | nil => cases h; exact hp
  | cons r rs ih =>
    obtain ⟨next, star, hforward, hrest⟩ := along_cons_eq_some.1 h
    exact ih (hp.forward hforward) hrest

/-- **After an opening nothing before it matters.**  The names that come through are
those of an import of everything from the last file that is opened. -/
theorem along_eq_of_sinceOpening {flows passed : Flows} {rs rest : List ImportRecord}
    (h : flows.along rs = some passed) (hopens : sinceOpening rs = some rest) :
    Flows.all.along rest = some passed := by
  induction rs generalizing flows with
  | nil => cases hopens
  | cons r rs ih =>
    obtain ⟨next, star, hforward, hrest⟩ := along_cons_eq_some.1 h
    rw [sinceOpening, Option.or_eq_some_iff] at hopens
    rcases hopens with hlater | ⟨-, hhere⟩
    · exact ih hrest hlater
    · split at hhere
      · rename_i ho
        cases hhere
        rcases forward_cases hforward with ⟨hs, -⟩ | ⟨-, rfl⟩ | ⟨-, hno, -⟩
        · simp [ImportRecord.isStar, ImportRecord.opens] at hs ho
          exact absurd hs.2 ho.1.2
        · exact hrest
        · rw [ho] at hno; cases hno
      · cases hhere

/-- An import of names, none of them a whole module, asks for its names. -/
theorem askedFor_requestedBy {r : ImportRecord} (hbinds : r.names ≠ [])
    (hwhole : ∀ b ∈ r.names, b.isWhole = false) :
    (requestedBy r).AskedFor r.requestedNames := by
  have hall : (r.names.isEmpty || r.names.any BoundName.isWhole) = false := by
    rw [Bool.or_eq_false_iff]
    exact ⟨by simpa using hbinds, by simpa using hwhole⟩
  rw [requestedBy, hall]
  refine ⟨by simpa using hbinds, fun f hf => ?_⟩
  obtain ⟨b, hb, rfl⟩ := List.mem_map.1 hf
  exact List.mem_map_of_mem hb

end Flows

/-- Some text is not in a list. -/
theorem exists_not_mem_names (names : List String) : ∃ name, name ∉ names := by
  have : Infinite String := Infinite.of_injective String.ofList fun _ _ => String.ofList_injective
  obtain ⟨name, hname⟩ := Infinite.exists_notMem_finset names.toFinset
  exact ⟨name, by simpa using hname⟩

namespace ReexportChain

/-- The chain answers for names that an import asks for, and for no others. -/
structure OnlyRequested (c : ReexportChain) (r : ImportRecord) : Prop where
  forwarded : ∀ b ∈ c.forwarded, b.localName ∈ r.requestedNames
  answers : ∀ name, (c.originName? name).isSome = true → name ∈ r.requestedNames

/-- **A chain answers for the names it forwards**, and for every name if it forwards
everything. -/
theorem isSome_originName?_iff {c : ReexportChain} {name : String} :
    (c.originName? name).isSome = true ↔
      c.forwarded = [] ∨ ∃ b ∈ c.forwarded, b.localName = name := by
  unfold originName? forwardsEverything
  cases hf : c.forwarded with
  | nil => simp
  | cons b bs => simp [List.find?_isSome]

/-- A chain answers only for names that are asked for exactly when the names at its end
are a list of such names. -/
theorem onlyRequested_iff_askedFor {c : ReexportChain} {r : ImportRecord} {passed : Flows}
    (hp : passed.Proper) (hc : c.forwarded = passed.forwarded) :
    c.OnlyRequested r ↔ passed.AskedFor r.requestedNames := by
  cases passed with
  | all =>
    refine ⟨fun h => ?_, fun h => absurd h id⟩
    obtain ⟨name, hname⟩ := exists_not_mem_names r.requestedNames
    exact absurd (h.answers name (isSome_originName?_iff.2 (.inl hc))) hname
  | names flows =>
    have hmem : ∀ b, b ∈ c.forwarded ↔ ∃ f ∈ flows, b = ⟨f.current, f.requested⟩ := by
      intro b
      rw [hc, Flows.forwarded, List.mem_map]
      simp [eq_comm]
    constructor
    · intro h
      exact ⟨hp, fun f hf => h.forwarded _ ((hmem _).2 ⟨f, hf, rfl⟩)⟩
    · rintro ⟨hne, hall⟩
      have hlocal : ∀ b ∈ c.forwarded, b.localName ∈ r.requestedNames := by
        intro b hb
        obtain ⟨f, hf, rfl⟩ := (hmem b).1 hb
        exact hall f hf
      refine ⟨hlocal, fun name hname => ?_⟩
      rcases isSome_originName?_iff.1 hname with hnil | ⟨b, hb, rfl⟩
      · rw [hc, Flows.forwarded, List.map_eq_nil_iff] at hnil
        exact absurd hnil hne
      · exact hlocal b hb

end ReexportChain

namespace Trace

/-- **When the names on a chain are asked for.**  Every chain of an import that binds
names, none of them a whole module, has a route; it answers only for names of the import
exactly when the route opens no file, or the names that come through after the last
opening are names of the import too. -/
theorem onlyRequested_iff_of_mem_chains (view : View Id) (maxDepth : Nat) (r : ImportRecord)
    (source : Path) (hbinds : r.names ≠ []) (hwhole : ∀ b ∈ r.names, b.isWhole = false)
    (c : ReexportChain) (hc : c ∈ (Id.run (trace view maxDepth r source)).chains) :
    ∃ target route, Id.run (view.resolve r.specifier source) = some target ∧
      IsRoute view [source.normalize] maxDepth (Flows.requestedBy r) target route ∧
      IsChainOf view.display [] false (Flows.requestedBy r) route c ∧
      (c.OnlyRequested r ↔
        ∀ rest, sinceOpening (route.map Hop.record) = some rest →
          ∃ flows, Flows.all.along rest = some (.names flows) ∧
            ∀ f ∈ flows, f.requested ∈ r.requestedNames) := by
  obtain ⟨target, route, htarget, hroute, hchain⟩ := exists_route_of_mem_chains hc
  refine ⟨target, route, htarget, hroute, hchain, ?_⟩
  obtain ⟨passed, hpassed, hforwarded, -⟩ := hchain.names
  have hasked := Flows.askedFor_requestedBy hbinds hwhole
  have hproper : passed.Proper := by
    refine Flows.Proper.along ?_ hpassed
    cases hflows : Flows.requestedBy r with
    | all => trivial
    | names flows => rw [hflows] at hasked; exact hasked.1
  rw [ReexportChain.onlyRequested_iff_askedFor hproper hforwarded]
  constructor
  · intro h rest hrest
    have hall := Flows.along_eq_of_sinceOpening hpassed hrest
    cases passed with
    | all => exact absurd h id
    | names flows => exact ⟨flows, hall, h.2⟩
  · intro h
    cases hopens : sinceOpening (route.map Hop.record) with
    | none => exact hasked.along hpassed hopens
    | some rest =>
      obtain ⟨flows, hflows, hmem⟩ := h rest hopens
      have hall := Flows.along_eq_of_sinceOpening hpassed hopens
      obtain rfl : passed = .names flows := Option.some.inj (hall.symm.trans hflows)
      exact ⟨hproper, hmem⟩

/-- The hypotheses are satisfiable: `/a.ts` imports `x` from `/b.ts`, which forwards it
from `/c.ts` as `y`, which is `z` of `p`. -/
theorem onlyRequested_iff_of_renamed :
    let r := recordAt "/a.ts" 1 .named "./b" [⟨"x", "x"⟩]
    let view := tableView
      [(⟨"/b.ts"⟩, [recordAt "/b.ts" 1 .reexport "./c" [⟨"y", "x"⟩]]),
        (⟨"/c.ts"⟩, [recordAt "/c.ts" 1 .reexport "p" [⟨"z", "y"⟩]])]
      [(("./b", ⟨"/a.ts"⟩), ⟨"/b.ts"⟩), (("./c", ⟨"/b.ts"⟩), ⟨"/c.ts"⟩)]
    let c : ReexportChain :=
      { specifier := "p", files := [⟨"/b.ts"⟩, ⟨"/c.ts"⟩], exportedNames := ["z"],
        forwarded := [⟨"z", "x"⟩], depth := 2, throughStar := false,
        origin := ⟨⟨"/c.ts"⟩, 1, 1, ""⟩ }
    r.names ≠ [] ∧ (∀ b ∈ r.names, b.isWhole = false) ∧
      c ∈ (Id.run (trace view 5 r ⟨"/a.ts"⟩)).chains ∧
      ∃ target route, Id.run (view.resolve r.specifier ⟨"/a.ts"⟩) = some target ∧
        IsRoute view [(⟨"/a.ts"⟩ : Path).normalize] 5 (Flows.requestedBy r) target route ∧
        IsChainOf view.display [] false (Flows.requestedBy r) route c ∧
        (c.OnlyRequested r ↔
          ∀ rest, sinceOpening (route.map Hop.record) = some rest →
            ∃ flows, Flows.all.along rest = some (.names flows) ∧
              ∀ f ∈ flows, f.requested ∈ r.requestedNames) := by
  intro r view c
  have hbinds : r.names ≠ [] := by decide
  have hwhole : ∀ b ∈ r.names, b.isWhole = false := by decide
  have hc : c ∈ (Id.run (trace view 5 r ⟨"/a.ts"⟩)).chains := by decide
  exact ⟨hbinds, hwhole, hc,
    onlyRequested_iff_of_mem_chains view 5 r ⟨"/a.ts"⟩ hbinds hwhole c hc⟩

/-- **A file that is opened puts its own names on the chain.**  `/a.ts` asks for `ns`
alone, `/b.ts` forwards all of `/c.ts` as `ns`, and `/c.ts` forwards `a` of `p` as `b`:
the chain answers for `b`, which nobody asked for, and not for `ns`. -/
theorem forwarded_not_requested_of_opened :
    let r := recordAt "/a.ts" 1 .named "./b" [⟨"ns", "ns"⟩]
    let view := tableView
      [(⟨"/b.ts"⟩, [recordAt "/b.ts" 1 .reexportAll "./c" [⟨"*", "ns"⟩]]),
        (⟨"/c.ts"⟩, [recordAt "/c.ts" 1 .reexport "p" [⟨"a", "b"⟩]])]
      [(("./b", ⟨"/a.ts"⟩), ⟨"/b.ts"⟩), (("./c", ⟨"/b.ts"⟩), ⟨"/c.ts"⟩)]
    (∀ b ∈ r.names, b.isWhole = false) ∧
      ∃ c ∈ (Id.run (trace view 5 r ⟨"/a.ts"⟩)).chains,
        (∃ b ∈ c.forwarded, b.localName ∉ r.requestedNames) ∧
        c.originName? "b" = some "a" ∧ c.originName? "ns" = none := by
  decide

end Trace
end DependencyUse
