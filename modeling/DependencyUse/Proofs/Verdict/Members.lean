/-
# The members that evidence finds used

The used members of a sum are those of its pieces, and the used members of an import or
of a chain are those of its bindings:

| binding | used members |
| --- | --- |
| of the module or its default | the module if it is called itself, and its called members |
| of a name | the name, if it or a member of it is called |
| through a chain, of a whole module | its called members that the chain lets through |
| through a chain, of what is a whole module there | its called members |
| through a chain, of a name | the name at the end, if it or a member of it is called |

A binding with a used member shows a use, so evidence with a used member does
(`showsUse_evidence_of_used`).  What a verdict lists as used and as affected hangs on these
members alone, and not on their order (`usage_eq_iff`).
-/

import DependencyUse.Proofs.NameSet
import DependencyUse.Proofs.Verdict.Decision

namespace DependencyUse
namespace Evidence

/-- The used members of a sum are those of its pieces, in order. -/
theorem used_sum (pieces : List Evidence) : (sum pieces).used = pieces.flatMap used := by
  induction pieces with
  | nil => rfl
  | cons e es ih =>
    rw [List.flatMap_cons, ← ih]
    rfl

theorem used_sum_map {α : Type} (xs : List α) (piece : α → Evidence) :
    (sum (xs.map piece)).used = xs.flatMap fun x => (piece x).used := by
  rw [used_sum, List.flatMap_map]

theorem used_ofWholeModule (c : Component) (g : CallGraph) (r : ImportRecord) (b : BoundName) :
    (ofWholeModule c g r b).used =
      (if g.isCalled b.localName then [moduleCallName c r b] else [])
        ++ g.calledMembers b.localName := by
  rw [ofWholeModule]
  cases hself : g.isCalled b.localName with
  | true => rfl
  | false =>
    cases hmembers : g.calledMembers b.localName with
    | nil => cases g.isReferenced b.localName <;> rfl
    | cons member members => rfl

theorem used_ofNamed (g : CallGraph) (b : BoundName) :
    (ofNamed g b).used = if g.isInvoked b.localName then [b.imported] else [] := by
  rw [ofNamed]
  cases g.isInvoked b.localName with
  | true => rfl
  | false => cases g.isReferenced b.localName <;> rfl

/-- **The used members of a direct import** are those of its bindings; a re-export uses
nothing. -/
theorem used_ofDirect (c : Component) (g : CallGraph) (i : Nat) (r : ImportRecord) :
    (ofDirect c g i r).used =
      if r.isReexport then [] else r.names.flatMap fun b => (ofBinding c g r b).used := by
  rw [ofDirect]
  cases r.isReexport with
  | true => rfl
  | false =>
    cases hnames : r.names with
    | nil =>
      show (ofUnbound r).used = []
      rw [ofUnbound]
      split <;> rfl
    | cons b bs =>
      rw [← used_sum_map]
      rfl

/-- **The used members of a chain** are those of the bindings of the import. -/
theorem used_ofChain (g : CallGraph) (i : Nat) (r : ImportRecord) (chain : ReexportChain) :
    (ofChain g i r chain).used = r.names.flatMap fun b => (ofChainBinding chain g b).used := by
  rw [← used_sum_map]
  rfl

theorem showsUse_ofBinding_of_used {c : Component} {g : CallGraph} {r : ImportRecord}
    {b : BoundName} (h : (ofBinding c g r b).used ≠ []) :
    (ofBinding c g r b).showsUse = true := by
  rw [showsUse_ofBinding_iff, BoundName.UsedIn]
  rw [ofBinding] at h
  cases hwhole : b.isWholeModule with
  | true =>
    rw [hwhole, if_pos rfl, used_ofWholeModule] at h
    cases hself : g.isCalled b.localName with
    | true => exact .inl ⟨rfl, .inl rfl⟩
    | false => exact .inl ⟨rfl, .inr (.inl (by simpa [hself] using h))⟩
  | false =>
    rw [hwhole, if_neg Bool.false_ne_true, used_ofNamed] at h
    cases hinvoked : g.isInvoked b.localName with
    | true => exact .inr ⟨rfl, rfl⟩
    | false => rw [hinvoked] at h; exact absurd rfl h

theorem showsUse_ofChainBinding_of_used {chain : ReexportChain} {g : CallGraph} {b : BoundName}
    (h : (ofChainBinding chain g b).used ≠ []) :
    (ofChainBinding chain g b).showsUse = true := by
  rw [ofChainBinding] at h ⊢
  cases hwhole : b.isWhole with
  | true =>
    rw [hwhole, if_pos rfl] at h
    simpa [showsUse] using h
  | false =>
    rw [hwhole, if_neg Bool.false_ne_true] at h
    rw [if_neg Bool.false_ne_true]
    cases horigin : chain.originName? b.imported with
    | none => rw [horigin] at h; exact absurd rfl h
    | some origin =>
      simp only [horigin] at h
      by_cases hmodule : origin = BoundName.wholeName
      · rw [if_pos hmodule] at h
        simpa [showsUse, hmodule] using h
      · rw [if_neg hmodule] at h
        cases hinvoked : g.isInvoked b.localName with
        | true => simp [showsUse, hmodule]
        | false =>
          rw [hinvoked] at h
          cases hmention : g.isReferenced b.localName <;> simp [hmention] at h

/-- A binding with a used member is among those of an import with one. -/
theorem exists_used_of_flatMap {α : Type} {xs : List α} {used : α → List String}
    (h : xs.flatMap used ≠ []) : ∃ x ∈ xs, used x ≠ [] := by
  obtain ⟨name, hname⟩ := List.exists_mem_of_ne_nil _ h
  obtain ⟨x, hx, hused⟩ := List.mem_flatMap.1 hname
  exact ⟨x, hx, List.ne_nil_of_mem hused⟩

theorem showsUse_ofDirect_of_used {c : Component} {g : CallGraph} {i : Nat} {r : ImportRecord}
    (h : (ofDirect c g i r).used ≠ []) : (ofDirect c g i r).showsUse = true := by
  rw [used_ofDirect] at h
  rw [showsUse_ofDirect_iff]
  cases hre : r.isReexport with
  | true => rw [hre] at h; exact absurd rfl h
  | false =>
    rw [hre, if_neg Bool.false_ne_true] at h
    obtain ⟨b, hb, hused⟩ := exists_used_of_flatMap h
    exact ⟨hre, .inl ⟨b, hb, showsUse_ofBinding_iff.1 (showsUse_ofBinding_of_used hused)⟩⟩

theorem showsUse_ofChain_of_used {g : CallGraph} {i : Nat} {r : ImportRecord}
    {chain : ReexportChain} (h : (ofChain g i r chain).used ≠ []) :
    (ofChain g i r chain).showsUse = true := by
  rw [used_ofChain] at h
  obtain ⟨b, hb, hused⟩ := exists_used_of_flatMap h
  exact showsUse_ofChain_iff.2
    ⟨b, hb, showsUse_ofChainBinding_iff.1 (showsUse_ofChainBinding_of_used hused)⟩

end Evidence

namespace Verdict

/-- The used members of all evidence are those of its pieces. -/
theorem used_evidence (c : Component) (p : Project) (t : TraceIndex) :
    (evidence c p t).used = (directEvidence c p t).flatMap Evidence.used
      ++ (chainEvidence c p t).flatMap Evidence.used := by
  rw [evidence, Evidence.used_sum, List.flatMap_append]

/-- A piece with a used member shows a use. -/
theorem showsUse_of_mem_pieces {c : Component} {p : Project} {t : TraceIndex} {e : Evidence}
    (he : e ∈ directEvidence c p t ++ chainEvidence c p t) (hused : e.used ≠ []) :
    e.showsUse = true := by
  rcases List.mem_append.1 he with he | he
  · obtain ⟨i, file, -, r, -, -, rfl⟩ := mem_directEvidence.1 he
    exact Evidence.showsUse_ofDirect_of_used hused
  · obtain ⟨traced, -, file, r, -, chain, -, -, rfl⟩ := mem_chainEvidence.1 he
    exact Evidence.showsUse_ofChain_of_used hused

/-- **Evidence with a used member shows a use.** -/
theorem showsUse_evidence_of_used {c : Component} {p : Project} {t : TraceIndex}
    (h : (evidence c p t).used ≠ []) : (evidence c p t).showsUse = true := by
  rw [used_evidence, ← List.flatMap_append] at h
  obtain ⟨e, he, hused⟩ := Evidence.exists_used_of_flatMap h
  exact (Evidence.isFlag_showsUse.sum_iff _).2 ⟨e, he, showsUse_of_mem_pieces he hused⟩

/-- **Verdicts have the same used members and the same affected functions** exactly when
the evidence has the same used members. -/
theorem usage_eq_iff {p q : Project} (hp : p.files ≠ []) (hq : q.files ≠ []) (t u : TraceIndex)
    (c : Component) :
    ((classify q u c).usage.usedMembers = (classify p t c).usage.usedMembers ∧
        (classify q u c).usage.vulnerableFunctionsCalled
          = (classify p t c).usage.vulnerableFunctionsCalled) ↔
      ∀ member, member ∈ (evidence c q u).used ↔ member ∈ (evidence c p t).used := by
  rw [classify, classify, if_neg (by simpa using hq), if_neg (by simpa using hp)]
  show (NameSet.ofList _).toList = (NameSet.ofList _).toList ∧
    ((NameSet.ofList _).inter _).toList = ((NameSet.ofList _).inter _).toList ↔ _
  rw [NameSet.toList_eq_iff, NameSet.toList_eq_iff]
  simp only [NameSet.mem_ofList, NameSet.mem_inter]
  exact and_iff_left_of_imp fun h member => and_congr_left fun _ => h member

/-- **Where evidence has more used members, so has the verdict**, and more affected functions. -/
theorem usage_subset {p q : Project} (hp : p.files ≠ []) (hq : q.files ≠ []) {t u : TraceIndex}
    {c : Component} (h : (evidence c p t).used ⊆ (evidence c q u).used) :
    (classify p t c).usage.usedMembers ⊆ (classify q u c).usage.usedMembers ∧
      (classify p t c).usage.vulnerableFunctionsCalled
        ⊆ (classify q u c).usage.vulnerableFunctionsCalled := by
  rw [classify, classify, if_neg (by simpa using hp), if_neg (by simpa using hq)]
  refine ⟨fun member hmember => ?_, fun member hmember => ?_⟩
  · exact NameSet.mem_ofList.2 (h (NameSet.mem_ofList.1 hmember))
  · obtain ⟨hused, haffected⟩ := NameSet.mem_inter.1 hmember
    exact NameSet.mem_inter.2
      ⟨NameSet.mem_ofList.2 (h (NameSet.mem_ofList.1 hused)), haffected⟩

end Verdict
end DependencyUse
