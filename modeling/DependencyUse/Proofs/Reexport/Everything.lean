/-
# When everything comes through

A chain that lists no names stands for every name.  It must not come about because no name is
left: then every call would count for a module that the importer asks nothing of.

| point of a trace | everything is asked for |
| --- | --- |
| the start, with an import of a whole module or one that binds nothing | yes |
| after `export * as n from './f'` | yes |
| after `export *` | as before |
| after any other re-export | no, but for some name |

So everything comes through a route exactly if it does at some point and every re-export after it
is a bare `export *` (`Flows.along_eq_all_iff`).  A list of names is not empty at any point, and
the names of a route can be said one by one, without lists (`CarriesAlong`): through every route that
is followed, some name that the importer asks for comes through.
-/

import DependencyUse.Proofs.Reexport.Requested

namespace DependencyUse
namespace ImportRecord

/-- The import is of a whole module, or binds nothing. -/
def asksForAll (r : ImportRecord) : Bool :=
  r.names.isEmpty || r.names.any BoundName.isWhole

/-- The import asks for a name. -/
def AsksFor (r : ImportRecord) (name : String) : Prop :=
  r.asksForAll = true ∨ name ∈ r.requestedNames

/-- Through the re-export, the name `inner` of what it re-exports is asked for as `outer`.  A
whole file under a name gives every name of the file. -/
def Carries (r : ImportRecord) (outer inner : String) : Prop :=
  match r.kind with
  | .reexportAll =>
    match r.names.head? with
    | none => inner = outer
    | some whole => outer = whole.localName ∧ (r.isRelative = true ∨ inner = BoundName.wholeName)
  | .reexport => ⟨inner, outer⟩ ∈ r.names
  | _ => False

section Carries

variable {r : ImportRecord} {outer inner : String}

theorem carries_star_iff (hkind : r.kind = .reexportAll) (hnames : r.names.head? = none) :
    r.Carries outer inner ↔ inner = outer := by
  simp [Carries, hkind, hnames]

theorem carries_whole_iff (hkind : r.kind = .reexportAll) {whole : BoundName}
    (hnames : r.names.head? = some whole) :
    r.Carries outer inner ↔
      outer = whole.localName ∧ (r.isRelative = true ∨ inner = BoundName.wholeName) := by
  simp [Carries, hkind, hnames]

theorem carries_named_iff (hkind : r.kind = .reexport) :
    r.Carries outer inner ↔ ⟨inner, outer⟩ ∈ r.names := by
  simp [Carries, hkind]

end Carries

theorem opens_eq_false_of_isStar {r : ImportRecord} (h : r.isStar = true) : r.opens = false := by
  rw [isStar, Bool.and_eq_true] at h
  simp [opens, h.2]

end ImportRecord

/-- Through re-exports one after the other, the name `inner` at their end is asked for as
`outer`. -/
def CarriesAlong : List ImportRecord → String → String → Prop
  | [], outer, inner => inner = outer
  | r :: rs, outer, inner => ∃ middle, r.Carries outer middle ∧ CarriesAlong rs middle inner

/-- Some re-export opens a file, and after it there is only `export *`. -/
def OpensLast (rs : List ImportRecord) : Prop :=
  ∃ before r after, rs = before ++ r :: after ∧ r.opens = true ∧ ∀ q ∈ after, q.isStar = true

theorem opensLast_cons_iff {r : ImportRecord} {rs : List ImportRecord} :
    OpensLast (r :: rs) ↔ (r.opens = true ∧ ∀ q ∈ rs, q.isStar = true) ∨ OpensLast rs := by
  constructor
  · rintro ⟨before, q, after, heq, hopens, hstars⟩
    cases before with
    | nil =>
      cases heq
      exact .inl ⟨hopens, hstars⟩
    | cons first before =>
      cases heq
      exact .inr ⟨before, q, after, rfl, hopens, hstars⟩
  · rintro (⟨hopens, hstars⟩ | ⟨before, q, after, rfl, hopens, hstars⟩)
    · exact ⟨[], r, rs, rfl, hopens, hstars⟩
    · exact ⟨r :: before, q, after, rfl, hopens, hstars⟩

namespace Flows

theorem requestedBy_eq_all_iff {r : ImportRecord} :
    requestedBy r = .all ↔ r.asksForAll = true := by
  rw [requestedBy, ← ImportRecord.asksForAll]
  cases r.asksForAll <;> simp

/-- An import asks for everything or for some names. -/
theorem proper_requestedBy (r : ImportRecord) : (requestedBy r).Proper := by
  unfold requestedBy
  split
  · trivial
  · rename_i hsome
    rw [Bool.or_eq_true, not_or] at hsome
    show r.names.map _ ≠ []
    simpa using hsome.1

/-- **Everything comes through re-exports** exactly if it is asked for at the start, or after a
file that is opened, and there is only `export *` from there on. -/
theorem along_eq_all_iff {flows passed : Flows} {rs : List ImportRecord}
    (h : flows.along rs = some passed) :
    passed = .all ↔ (flows = .all ∧ ∀ r ∈ rs, r.isStar = true) ∨ OpensLast rs := by
  induction rs generalizing flows with
  | nil =>
    cases h
    have hnone : ¬ OpensLast [] := by
      rintro ⟨before, r, after, heq, -⟩
      simp at heq
    simp [hnone]
  | cons r rs ih =>
    obtain ⟨next, star, hforward, hrest⟩ := along_cons_eq_some.1 h
    rw [ih hrest, opensLast_cons_iff, List.forall_mem_cons]
    rcases forward_cases hforward with ⟨hstar, rfl⟩ | ⟨hopens, rfl⟩ | ⟨hstar, hopens, hits, -, rfl, -⟩
    · simp [hstar, ImportRecord.opens_eq_false_of_isStar hstar]
    · have hstar : r.isStar = false := by
        by_contra hstar
        rw [Bool.not_eq_false] at hstar
        rw [ImportRecord.opens_eq_false_of_isStar hstar] at hopens
        cases hopens
      simp [hstar, hopens]
    · simp [hstar, hopens]

/-- A name is among those that are followed. -/
def Holds : Flows → String → Prop
  | .all, _ => True
  | .names flows, name => ∃ f ∈ flows, f.current = name

theorem holds_requestedBy {r : ImportRecord} {name : String} :
    (requestedBy r).Holds name ↔ r.AsksFor name := by
  rw [requestedBy, ← ImportRecord.asksForAll, ImportRecord.AsksFor]
  cases r.asksForAll with
  | true => simp [Holds]
  | false => simp [Holds, ImportRecord.requestedNames]

/-- What a whole module is forwarded as is followed. -/
theorem holds_of_wholeHits_ne_nil {flows : Flows} {name : String} (h : flows.wholeHits name ≠ []) :
    flows.Holds name := by
  cases flows with
  | all => trivial
  | names flows =>
    obtain ⟨f, hf⟩ := List.exists_mem_of_ne_nil _ h
    obtain ⟨g, hg, -⟩ := List.mem_map.1 hf
    obtain ⟨hmem, hname⟩ := List.mem_filter.1 hg
    exact ⟨g, hmem, beq_iff_eq.1 hname⟩

theorem current_of_mem_wholeHits {flows : Flows} {name : String} {f : NameFlow}
    (h : f ∈ flows.wholeHits name) : f.current = BoundName.wholeName := by
  cases flows with
  | all => rw [List.mem_singleton.1 h]
  | names flows =>
    obtain ⟨g, -, rfl⟩ := List.mem_map.1 h
    rfl

/-- What comes through `export { … } from` is a name of the list. -/
theorem exists_holds_of_mem_namedHits {flows : Flows} {names : List BoundName} {f : NameFlow}
    (h : f ∈ flows.namedHits names) : ∃ outer, flows.Holds outer ∧ ⟨f.current, outer⟩ ∈ names := by
  cases flows with
  | all =>
    obtain ⟨b, hb, rfl⟩ := List.mem_map.1 h
    exact ⟨b.localName, trivial, hb⟩
  | names flows =>
    obtain ⟨g, hg, hf⟩ := List.mem_flatMap.1 h
    obtain ⟨b, hb, rfl⟩ := List.mem_map.1 hf
    obtain ⟨hmem, hname⟩ := List.mem_filter.1 hb
    refine ⟨g.current, ⟨g, hg, rfl⟩, ?_⟩
    rw [← beq_iff_eq.1 hname]
    exact hmem

/-- **A re-export lets a name through that is followed.** -/
theorem exists_holds_of_forward {flows next : Flows} {r : ImportRecord} {star : Bool}
    (h : flows.forward r = some (next, star)) {inner : String} (hinner : next.Holds inner) :
    ∃ outer, flows.Holds outer ∧ r.Carries outer inner := by
  unfold forward at h
  split at h
  · rename_i hkind
    split at h
    · rename_i hnone
      cases h
      exact ⟨inner, hinner, (ImportRecord.carries_star_iff hkind hnone).2 rfl⟩
    · rename_i whole hsome
      obtain ⟨passed, hpassed, he⟩ := Option.map_eq_some_iff.1 h
      obtain ⟨hne, rfl⟩ := ofHits_eq_some.1 hpassed
      refine ⟨whole.localName, holds_of_wholeHits_ne_nil hne,
        (ImportRecord.carries_whole_iff hkind hsome).2 ⟨rfl, ?_⟩⟩
      -- a whole file gives every name of it, an outside module is known as a whole only
      cases hrelative : r.isRelative with
      | true => exact .inl rfl
      | false =>
        rw [hrelative] at he
        cases he
        obtain ⟨f, hf, rfl⟩ := hinner
        exact .inr (current_of_mem_wholeHits hf)
  · rename_i hkind
    obtain ⟨passed, hpassed, he⟩ := Option.map_eq_some_iff.1 h
    obtain ⟨-, rfl⟩ := ofHits_eq_some.1 hpassed
    cases he
    obtain ⟨f, hf, rfl⟩ := hinner
    obtain ⟨outer, houter, hmem⟩ := exists_holds_of_mem_namedHits hf
    exact ⟨outer, houter, (ImportRecord.carries_named_iff hkind).2 hmem⟩
  · cases h

/-- **Re-exports let a name through that is followed**, whenever they let anything through. -/
theorem exists_carries {flows passed : Flows} {rs : List ImportRecord} (hp : flows.Proper)
    (h : flows.along rs = some passed) :
    ∃ name origin, flows.Holds name ∧ CarriesAlong rs name origin := by
  induction rs generalizing flows with
  | nil =>
    cases flows with
    | all => exact ⟨"", "", trivial, rfl⟩
    | names flows =>
      obtain ⟨f, flows, rfl⟩ := List.exists_cons_of_ne_nil hp
      exact ⟨f.current, f.current, ⟨f, List.mem_cons_self .., rfl⟩, rfl⟩
  | cons r rs ih =>
    obtain ⟨next, star, hforward, hrest⟩ := along_cons_eq_some.1 h
    obtain ⟨middle, origin, hmiddle, hcarries⟩ := ih (hp.forward hforward) hrest
    obtain ⟨name, hname, hfirst⟩ := exists_holds_of_forward hforward hmiddle
    exact ⟨name, origin, hname, middle, hfirst, hcarries⟩

end Flows

/-- Everything comes through a route: there is a point at which everything is asked for, the
start or a file that is opened, and only `export *` from there on. -/
def EverythingFlows (r : ImportRecord) (route : List Hop) : Prop :=
  (r.asksForAll = true ∧ ∀ h ∈ route, h.record.isStar = true) ∨
    ∃ before h after, route = before ++ h :: after ∧ h.record.opens = true ∧
      ∀ k ∈ after, k.record.isStar = true

theorem opensLast_map_record {route : List Hop} :
    OpensLast (route.map Hop.record) ↔ ∃ before h after, route = before ++ h :: after ∧
      h.record.opens = true ∧ ∀ k ∈ after, k.record.isStar = true := by
  constructor
  · rintro ⟨before, r, after, heq, hopens, hstars⟩
    obtain ⟨front, rest, rfl, rfl, hrest⟩ := List.map_eq_append_iff.1 heq
    obtain ⟨h, behind, rfl, rfl, rfl⟩ := List.map_eq_cons_iff.1 hrest
    exact ⟨front, h, behind, rfl, hopens, List.forall_mem_map.1 hstars⟩
  · rintro ⟨before, h, after, rfl, hopens, hstars⟩
    exact ⟨before.map Hop.record, h.record, after.map Hop.record, by simp, hopens,
      List.forall_mem_map.2 hstars⟩

theorem Flows.forwarded_eq_nil_iff {flows : Flows} (hp : flows.Proper) :
    flows.forwarded = [] ↔ flows = .all := by
  cases flows with
  | all => simp [forwarded]
  | names flows =>
    have hne : flows ≠ [] := hp
    simp [forwarded, hne]

namespace Trace

/-- **An empty list of names on a chain means that everything comes through.**  At no point of a
trace is the list of names that are followed empty.  A chain has no names exactly if everything
is asked for at the end of its route; this is so exactly if there is a point at which everything
is asked for and only `export *` after it.  Through every route that has a chain comes a name
that is asked for. -/
theorem forwarded_eq_nil_iff_everythingFlows (view : View Id) (maxDepth : Nat) (r : ImportRecord)
    (source : Path) :
    (∀ rs flows, (Flows.requestedBy r).along rs = some flows → flows ≠ .names []) ∧
      ∀ c ∈ (Id.run (trace view maxDepth r source)).chains, ∃ target route passed,
        Id.run (view.resolve r.specifier source) = some target ∧
        IsRoute view [source.normalize] maxDepth (Flows.requestedBy r) target route ∧
        IsChainOf view.display [] false (Flows.requestedBy r) route c ∧
        (Flows.requestedBy r).along (route.map Hop.record) = some passed ∧
        (c.forwarded = [] ↔ passed = .all) ∧
        (c.forwardsEverything = true ↔ EverythingFlows r route) ∧
        ∃ name origin, r.AsksFor name ∧ CarriesAlong (route.map Hop.record) name origin := by
  have hproper := Flows.proper_requestedBy r
  refine ⟨?_, fun c hc => ?_⟩
  · rintro rs flows h rfl
    exact hproper.along h rfl
  · obtain ⟨target, route, htarget, hroute, hchain⟩ := exists_route_of_mem_chains hc
    obtain ⟨passed, hpassed, hforwarded, -⟩ := hchain.names
    have hnil : c.forwarded = [] ↔ passed = .all := by
      rw [hforwarded, Flows.forwarded_eq_nil_iff (hproper.along hpassed)]
    obtain ⟨name, origin, hname, hcarries⟩ := Flows.exists_carries hproper hpassed
    refine ⟨target, route, passed, htarget, hroute, hchain, hpassed, hnil, ?_, name, origin,
      Flows.holds_requestedBy.1 hname, hcarries⟩
    rw [ReexportChain.forwardsEverything, List.isEmpty_iff, hnil, Flows.along_eq_all_iff hpassed,
      Flows.requestedBy_eq_all_iff, List.forall_mem_map, opensLast_map_record]
    rfl

/-- The hypotheses are satisfiable: `/a.ts` asks for `ns`, which is all of `/c.ts`, and `/c.ts`
forwards all of `p`.  A second re-export of `/b.ts` forwards a name that nobody asks for. -/
theorem forwarded_eq_nil_iff_everythingFlows_opened :
    let r := recordAt "/a.ts" 1 .named "./b" [⟨"ns", "ns"⟩]
    let opening := recordAt "/b.ts" 1 .reexportAll "./c" [⟨"*", "ns"⟩]
    let view := tableView
      [(⟨"/b.ts"⟩, [opening, recordAt "/b.ts" 2 .reexport "q" [⟨"x", "y"⟩]]),
        (⟨"/c.ts"⟩, [recordAt "/c.ts" 1 .reexportAll "p" []])]
      [(("./b", ⟨"/a.ts"⟩), ⟨"/b.ts"⟩), (("./c", ⟨"/b.ts"⟩), ⟨"/c.ts"⟩)]
    let c : ReexportChain :=
      { specifier := "p", files := [⟨"/b.ts"⟩, ⟨"/c.ts"⟩], exportedNames := [],
        forwarded := [], depth := 2, throughStar := true, origin := ⟨⟨"/c.ts"⟩, 1, 1, ""⟩ }
    (Flows.requestedBy r).along [opening] = some .all ∧ Flows.all ≠ .names [] ∧
      (Id.run (trace view 5 r ⟨"/a.ts"⟩)).chains = [c] ∧
      ∃ target route passed, Id.run (view.resolve r.specifier ⟨"/a.ts"⟩) = some target ∧
        IsRoute view [(⟨"/a.ts"⟩ : Path).normalize] 5 (Flows.requestedBy r) target route ∧
        IsChainOf view.display [] false (Flows.requestedBy r) route c ∧
        (Flows.requestedBy r).along (route.map Hop.record) = some passed ∧
        (c.forwarded = [] ↔ passed = .all) ∧
        (c.forwardsEverything = true ↔ EverythingFlows r route) ∧
        ∃ name origin, r.AsksFor name ∧ CarriesAlong (route.map Hop.record) name origin := by
  intro r opening view c
  have halong : (Flows.requestedBy r).along [opening] = some .all := by decide
  have hchains : (Id.run (trace view 5 r ⟨"/a.ts"⟩)).chains = [c] := by decide
  have h := forwarded_eq_nil_iff_everythingFlows view 5 r ⟨"/a.ts"⟩
  exact ⟨halong, h.1 _ _ halong, hchains, h.2 c (by rw [hchains]; exact List.mem_singleton.2 rfl)⟩

end Trace
end DependencyUse
