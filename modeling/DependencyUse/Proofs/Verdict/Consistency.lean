/-
# Verdicts agree with themselves

The parts of a verdict are computed apart from each other: the status from flags, the
members and places from lists, the confidence from the status and the members.  They
agree because every piece of evidence agrees with itself:

| a piece of evidence | has |
| --- | --- |
| any | a place, a style, and a flag that says where it comes from |
| with a used member | a flag that makes the component reachable |

The first line says that a place, a style and such a flag are found in all evidence as
soon as there is a piece of it (`flag_evidence_iff_pieces`); the second is
`showsUse_evidence_of_used`.
-/

import DependencyUse.Proofs.Order
import DependencyUse.Proofs.Verdict.Members

namespace DependencyUse

/-- What the parts of a verdict on a component of a project say of each other. -/
structure ComponentResult.Consistent (p : Project) (r : ComponentResult) : Prop where
  used_reachable : r.usage.usedMembers ≠ [] → r.status = .reachable
  used_sorted : r.usage.usedMembers.Pairwise (· < ·)
  referenced_sorted : r.usage.referencedMembers.Pairwise (· < ·)
  disjoint : ∀ name ∈ r.usage.usedMembers, name ∉ r.usage.referencedMembers
  vulnerable_iff : ∀ name, name ∈ r.usage.vulnerableFunctionsCalled ↔
    name ∈ r.usage.usedMembers ∧ ∃ v ∈ r.component.vulnerabilities, name ∈ v.affectedFunctions
  vulnerable_sorted : r.usage.vulnerableFunctionsCalled.Pairwise (· < ·)
  vulnerable_high : r.usage.vulnerableFunctionsCalled ≠ [] →
    r.status = .reachable ∧ r.confidence = .high
  locations_sorted : r.usage.locations.Pairwise fun a b => a.cmp b = .lt
  locations_nil_iff : r.usage.locations = [] ↔ r.status = .notReachable ∨ r.status = .unknown
  styles_nil_iff : r.usage.importStyles = [] ↔ r.status = .notReachable ∨ r.status = .unknown
  low_iff : r.confidence = .low ↔ r.status = .unknown
  notReachable : r.status = .notReachable → p.completed = true ∧ p.files ≠ [] ∧
    (r.confidence = .high ↔ ∀ file ∈ p.files, ∀ d ∈ file.callGraph.dynamicCode,
      d.kind ≠ .computedImport ∧ d.kind ≠ .computedRequire)

namespace Evidence

/-- Whether a list of evidence has an entry is a flag. -/
theorem isFlag_list {α : Type} (list : Evidence → List α) (hempty : list {} = [])
    (happend : ∀ a b, list (a ++ b) = list a ++ list b) : IsFlag fun e => !(list e).isEmpty where
  empty := by rw [hempty]; rfl
  append a b := by
    rw [happend]
    cases list a <;> rfl

theorem isFlag_locations : IsFlag fun e => !e.locations.isEmpty :=
  isFlag_list locations rfl fun _ _ => rfl

theorem isFlag_styles : IsFlag fun e => !e.styles.isEmpty :=
  isFlag_list styles rfl fun _ _ => rfl

/-- An import or a chain was seen. -/
def isSeen (e : Evidence) : Bool :=
  e.directImport || e.chain

theorem isFlag_isSeen : IsFlag isSeen where
  empty := rfl
  append a b := by
    show (a.directImport || b.directImport || (a.chain || b.chain)) = _
    simp only [isSeen, Bool.or_assoc, Bool.or_left_comm]

/-- A piece that says where it comes from: a place, a style, and an import or a chain. -/
structure IsPiece (e : Evidence) : Prop where
  location : (!e.locations.isEmpty) = true
  style : (!e.styles.isEmpty) = true
  seen : e.isSeen = true

theorem isPiece_ofDirect (c : Component) (g : CallGraph) (i : Nat) (r : ImportRecord) :
    (ofDirect c g i r).IsPiece := by
  unfold ofDirect
  split
  · exact ⟨rfl, rfl, rfl⟩
  · split <;> exact ⟨rfl, rfl, rfl⟩

theorem isPiece_ofChain (g : CallGraph) (i : Nat) (r : ImportRecord) (chain : ReexportChain) :
    (ofChain g i r chain).IsPiece where
  location := rfl
  style := rfl
  seen := by rw [isSeen, (flags_ofChain g i r chain).1, Bool.or_true]

end Evidence

namespace Verdict

/-- The pieces of evidence for a component. -/
def pieces (c : Component) (p : Project) (t : TraceIndex) : List Evidence :=
  directEvidence c p t ++ chainEvidence c p t

theorem isPiece_of_mem_pieces {c : Component} {p : Project} {t : TraceIndex} {e : Evidence}
    (he : e ∈ pieces c p t) : e.IsPiece := by
  rcases List.mem_append.1 he with he | he
  · obtain ⟨i, file, -, r, -, -, rfl⟩ := mem_directEvidence.1 he
    exact Evidence.isPiece_ofDirect _ _ _ _
  · obtain ⟨traced, -, file, r, -, chain, -, -, rfl⟩ := mem_chainEvidence.1 he
    exact Evidence.isPiece_ofChain _ _ _ _

/-- **A flag that every piece sets** is set as soon as there is a piece. -/
theorem flag_evidence_iff_pieces {f : Evidence → Bool} (hf : Evidence.IsFlag f) {c : Component}
    {p : Project} {t : TraceIndex} (hall : ∀ e ∈ pieces c p t, f e = true) :
    f (evidence c p t) = true ↔ pieces c p t ≠ [] := by
  rw [evidence, hf.sum_iff]
  constructor
  · rintro ⟨e, he, -⟩
    exact List.ne_nil_of_mem he
  · intro hne
    obtain ⟨e, he⟩ := List.exists_mem_of_ne_nil _ hne
    exact ⟨e, he, hall e he⟩

/-- What shows a use is a piece. -/
theorem pieces_ne_nil_of_showsUse {c : Component} {p : Project} {t : TraceIndex}
    (h : (evidence c p t).showsUse = true) : pieces c p t ≠ [] := by
  obtain ⟨e, he, -⟩ := (Evidence.isFlag_showsUse.sum_iff _).1 h
  exact List.ne_nil_of_mem he

/-- **Nothing was found out** exactly when there is no evidence. -/
theorem status_conclude_nothing_iff {c : Component} {p : Project} {t : TraceIndex} :
    ((conclude p (evidence c p t)).1 = .notReachable ∨ (conclude p (evidence c p t)).1 = .unknown) ↔
      pieces c p t = [] := by
  have hseen := flag_evidence_iff_pieces Evidence.isFlag_isSeen fun e (he : e ∈ pieces c p t) =>
    (isPiece_of_mem_pieces he).seen
  rw [Evidence.isSeen, Bool.or_eq_true] at hseen
  rw [status_conclude]
  by_cases huse : (evidence c p t).showsUse = true
  · simp [huse, pieces_ne_nil_of_showsUse huse]
  · by_cases hdirect : (evidence c p t).directImport = true
    · simp [huse, hdirect, hseen.1 (.inl hdirect)]
    · by_cases hchain : (evidence c p t).chain = true
      · simp [huse, hdirect, hchain, hseen.1 (.inr hchain)]
      · have hnone : pieces c p t = [] := by
          by_contra hne
          exact (hseen.2 hne).elim hdirect hchain
        cases hcompleted : p.completed <;> simp [huse, hdirect, hchain, hnone]

/-- The confidence that evidence leads to is low where nothing is known, and where the
component is not reachable it is high exactly if no module name is computed. -/
theorem confidence_conclude (p : Project) (e : Evidence) :
    ((conclude p e).2 = .low ↔ (conclude p e).1 = .unknown) ∧
      ((conclude p e).1 = .notReachable → p.completed = true ∧
        ((conclude p e).2 = .high ↔ p.hasDynamicImports = false)) := by
  unfold conclude
  cases e.namedCall
  · cases (e.wholeModuleUse || e.dynamicLoad || e.barrelCall)
    · cases e.directImport
      · cases e.chain
        · cases p.completed
          · simp
          · cases p.hasDynamicImports <;> simp
        · simp
      · simp
    · simp
  · simp

theorem hasDynamicImports_eq_false_iff {p : Project} :
    p.hasDynamicImports = false ↔ ∀ file ∈ p.files, ∀ d ∈ file.callGraph.dynamicCode,
      d.kind ≠ .computedImport ∧ d.kind ≠ .computedRequire := by
  have hkind : ∀ kind : DynamicKind, kind.hidesImports = false ↔
      kind ≠ .computedImport ∧ kind ≠ .computedRequire := by
    intro kind
    cases kind <;> decide
  simp only [Project.hasDynamicImports, CallGraph.hasDynamicImports, List.any_eq_false,
    Bool.not_eq_true, hkind]

theorem importStyles_eq_nil_iff {styles : List ImportKind} :
    (ImportKind.all.filter fun kind => styles.contains kind) = [] ↔ styles = [] := by
  have hall : ∀ kind : ImportKind, kind ∈ ImportKind.all := by
    intro kind
    cases kind <;> decide
  rw [List.filter_eq_nil_iff]
  constructor
  · intro h
    refine List.eq_nil_iff_forall_not_mem.2 fun kind hkind => h kind (hall kind) ?_
    exact List.contains_iff_mem.2 hkind
  · rintro rfl kind -
    exact Bool.false_ne_true

theorem mem_affectedFunctions {c : Component} {name : String} :
    name ∈ c.affectedFunctions.toList ↔ ∃ v ∈ c.vulnerabilities, name ∈ v.affectedFunctions := by
  rw [Component.affectedFunctions, NameSet.mem_ofList, List.mem_flatMap]

theorem consistent_nothingParsed (c : Component) (p : Project) :
    (nothingParsed c p).Consistent p where
  used_reachable h := absurd rfl h
  used_sorted := List.Pairwise.nil
  referenced_sorted := List.Pairwise.nil
  disjoint _ h := absurd h List.not_mem_nil
  vulnerable_iff _ := ⟨fun h => absurd h List.not_mem_nil, fun h => absurd h.1 List.not_mem_nil⟩
  vulnerable_sorted := List.Pairwise.nil
  vulnerable_high h := absurd rfl h
  locations_sorted := List.Pairwise.nil
  locations_nil_iff := ⟨fun _ => .inr rfl, fun _ => rfl⟩
  styles_nil_iff := ⟨fun _ => .inr rfl, fun _ => rfl⟩
  low_iff := ⟨fun _ => rfl, fun _ => rfl⟩
  notReachable h := by cases h

/-- Evidence whose lists agree with the status that it leads to. -/
structure Agrees (p : Project) (e : Evidence) : Prop where
  used : e.used ≠ [] → (conclude p e).1 = .reachable
  locations : e.locations = [] ↔ (conclude p e).1 = .notReachable ∨ (conclude p e).1 = .unknown
  styles : e.styles = [] ↔ (conclude p e).1 = .notReachable ∨ (conclude p e).1 = .unknown

/-- **The evidence for a component agrees with the status that it leads to.** -/
theorem agrees_evidence (c : Component) (p : Project) (t : TraceIndex) :
    Agrees p (evidence c p t) where
  used h := by rw [status_conclude, if_pos (showsUse_evidence_of_used h)]
  locations := by
    have hflag := flag_evidence_iff_pieces Evidence.isFlag_locations fun e
      (he : e ∈ pieces c p t) => (isPiece_of_mem_pieces he).location
    rw [status_conclude_nothing_iff]
    simpa using not_congr hflag
  styles := by
    have hflag := flag_evidence_iff_pieces Evidence.isFlag_styles fun e
      (he : e ∈ pieces c p t) => (isPiece_of_mem_pieces he).style
    rw [status_conclude_nothing_iff]
    simpa using not_congr hflag

/-- The confidence of a verdict is that of the evidence, unless a used member is affected,
which makes it high. -/
theorem confidence_ofEvidence (c : Component) (p : Project) (t : TraceIndex) (e : Evidence) :
    (ofEvidence c p t e).confidence =
      if (ofEvidence c p t e).usage.vulnerableFunctionsCalled = [] then (conclude p e).2
      else .high := by
  show (if NameSet.isEmpty _ = true then (conclude p e).2 else .high) = _
  simp only [NameSet.isEmpty_iff]
  rfl

/-- **Evidence that agrees with its status gives a consistent verdict.** -/
theorem consistent_ofEvidence {p : Project} {e : Evidence} (h : Agrees p e) (hfiles : p.files ≠ [])
    (c : Component) (t : TraceIndex) : (ofEvidence c p t e).Consistent p := by
  have hused : (ofEvidence c p t e).usage.usedMembers ≠ [] → (conclude p e).1 = .reachable := by
    intro hne
    obtain ⟨name, hname⟩ := List.exists_mem_of_ne_nil _ hne
    exact h.used (List.ne_nil_of_mem (NameSet.mem_ofList.1 hname))
  have hvulnerable : ∀ name, name ∈ (ofEvidence c p t e).usage.vulnerableFunctionsCalled ↔
      name ∈ (ofEvidence c p t e).usage.usedMembers ∧
        ∃ v ∈ c.vulnerabilities, name ∈ v.affectedFunctions := by
    intro name
    rw [← mem_affectedFunctions]
    exact NameSet.mem_inter
  have hreachable : (ofEvidence c p t e).usage.vulnerableFunctionsCalled ≠ [] →
      (conclude p e).1 = .reachable := by
    intro hne
    obtain ⟨name, hname⟩ := List.exists_mem_of_ne_nil _ hne
    exact hused (List.ne_nil_of_mem ((hvulnerable name).1 hname).1)
  -- where the component is not reachable, no used member is affected
  have hconfidence : (conclude p e).1 ≠ .reachable →
      (ofEvidence c p t e).confidence = (conclude p e).2 := by
    intro hstatus
    rw [confidence_ofEvidence, if_pos (by_contra fun hne => hstatus (hreachable hne))]
  obtain ⟨hlow, hhigh⟩ := confidence_conclude p e
  exact
    { used_reachable := hused
      used_sorted := NameSet.strict _
      referenced_sorted := NameSet.strict _
      disjoint := fun name hname hreferenced => (NameSet.mem_diff.1 hreferenced).2 hname
      vulnerable_iff := hvulnerable
      vulnerable_sorted := NameSet.strict _
      vulnerable_high := fun hne => ⟨hreachable hne, by rw [confidence_ofEvidence, if_neg hne]⟩
      locations_sorted := pairwise_sortUnique _
      locations_nil_iff := sortUnique_eq_nil_iff.trans h.locations
      styles_nil_iff := importStyles_eq_nil_iff.trans h.styles
      low_iff := by
        constructor
        · intro hc
          rw [confidence_ofEvidence] at hc
          split at hc
          · exact hlow.1 hc
          · cases hc
        · intro (hstatus : (conclude p e).1 = .unknown)
          rw [hconfidence (by simp [hstatus])]
          exact hlow.2 hstatus
      notReachable := by
        intro (hstatus : (conclude p e).1 = .notReachable)
        rw [hconfidence (by simp [hstatus]), ← hasDynamicImports_eq_false_iff]
        exact ⟨(hhigh hstatus).1, hfiles, (hhigh hstatus).2⟩ }

/-- **Every verdict agrees with itself.**  For every project, every index of traces and
every component, what the verdict says of used and affected members, of places and
styles, of its status and of its confidence fits together. -/
theorem consistent_classify (p : Project) (t : TraceIndex) (c : Component) :
    (classify p t c).component = c ∧ (classify p t c).Consistent p := by
  unfold classify
  split
  · exact ⟨rfl, consistent_nothingParsed c p⟩
  · rename_i hfiles
    exact ⟨rfl, consistent_ofEvidence (agrees_evidence c p t) (by simpa using hfiles) c t⟩

end Verdict
end DependencyUse
