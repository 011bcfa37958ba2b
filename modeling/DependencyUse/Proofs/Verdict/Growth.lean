/-
# More evidence never lowers a verdict

A project grows: files gain imports after those they have, called names and mentioned names, and
files are added after those that there are.  The traces stay.  Then nothing that speaks for a
component is lost:

| in the smaller project | in the larger one |
| --- | --- |
| a name or a member is called | it is called |
| a binding is used, or called through a chain | it is |
| an import counts directly | it counts directly |
| there is a piece of evidence | there is one |

A binding may give other evidence than before, a call where there was a mention.  But a call is
the stronger one, so the status, which is decided by the strongest evidence, can only rise.
-/

import DependencyUse.Proofs.Verdict.Consistency

namespace DependencyUse

/-- The second call graph has the names of the first, and maybe more.  The single calls, and the
places where code is made at run time, may be any. -/
structure CallGraph.GrowsTo (g g' : CallGraph) : Prop where
  called : g.calledNames.toList ⊆ g'.calledNames.toList
  referenced : g.referencedNames.toList ⊆ g'.referencedNames.toList

/-- The second file has the imports of the first at their places, and maybe more after them, and
its calls and mentions have grown. -/
structure ParsedFile.GrowsTo (file file' : ParsedFile) : Prop where
  imports : file.imports <+: file'.imports
  callGraph : file.callGraph.GrowsTo file'.callGraph

/-- The files of the first project are at the same places in the second, and have grown.  The
second may have more files after them. -/
def Project.GrowsTo (p p' : Project) : Prop :=
  ∀ (i : Nat) (file : ParsedFile), p.files[i]? = some file →
    ∃ file', p'.files[i]? = some file' ∧ file.GrowsTo file'

/-- How much a status says of a component; where too little was looked at, nothing is said. -/
def Status.rank? : Status → Option Nat
  | .notReachable => some 0
  | .indirect => some 1
  | .imported => some 2
  | .reachable => some 3
  | .unknown => none

/-- The second verdict says at least as much as the first. -/
structure ComponentResult.RisesTo (r r' : ComponentResult) : Prop where
  status : ∃ n n', r.status.rank? = some n ∧ r'.status.rank? = some n' ∧ n ≤ n'
  used : r.usage.usedMembers ⊆ r'.usage.usedMembers
  vulnerable : r.usage.vulnerableFunctionsCalled ⊆ r'.usage.vulnerableFunctionsCalled

theorem flatMap_subset_flatMap {α β : Type} {xs : List α} {f g : α → List β}
    (h : ∀ x ∈ xs, f x ⊆ g x) : xs.flatMap f ⊆ xs.flatMap g := by
  intro y hy
  obtain ⟨x, hx, hy⟩ := List.mem_flatMap.1 hy
  exact List.mem_flatMap.2 ⟨x, hx, h x hx hy⟩

namespace CallGraph.GrowsTo

variable {g g' : CallGraph} (h : g.GrowsTo g') {name : String}
include h

theorem isCalled (hname : g.isCalled name = true) : g'.isCalled name = true :=
  NameSet.contains_iff.2 (h.called (NameSet.contains_iff.1 hname))

theorem isReferenced (hname : g.isReferenced name = true) : g'.isReferenced name = true :=
  NameSet.contains_iff.2 (h.referenced (NameSet.contains_iff.1 hname))

theorem calledMembers (name : String) : g.calledMembers name ⊆ g'.calledMembers name := by
  intro member hmember
  obtain ⟨full, hfull, hleads⟩ := NameSet.mem_membersOf.1 hmember
  exact NameSet.mem_membersOf.2 ⟨full, h.called hfull, hleads⟩

theorem calledMembers_ne_nil (hname : g.calledMembers name ≠ []) : g'.calledMembers name ≠ [] := by
  obtain ⟨member, hmember⟩ := List.exists_mem_of_ne_nil _ hname
  exact List.ne_nil_of_mem (h.calledMembers name hmember)

theorem isInvoked (hname : g.isInvoked name = true) : g'.isInvoked name = true := by
  simp only [CallGraph.isInvoked, Bool.or_eq_true, Bool.not_eq_true', List.isEmpty_eq_false_iff]
    at hname ⊢
  exact hname.imp h.isCalled h.calledMembers_ne_nil

/-- **A binding that is used stays used.** -/
theorem usedIn {b : BoundName} (hb : b.UsedIn g) : b.UsedIn g' := by
  rcases hb with ⟨hwhole, hused⟩ | ⟨hnamed, hinvoked⟩
  · exact .inl ⟨hwhole, hused.imp h.isCalled (Or.imp h.calledMembers_ne_nil h.isReferenced)⟩
  · exact .inr ⟨hnamed, h.isInvoked hinvoked⟩

theorem usedIn_record {r : ImportRecord} (hr : r.UsedIn g) : r.UsedIn g' := by
  refine ⟨hr.1, hr.2.imp_left ?_⟩
  rintro ⟨b, hb, hused⟩
  exact ⟨b, hb, h.usedIn hused⟩

/-- What a chain forwards of a call stays forwarded. -/
theorem forwardsCall {chain : ReexportChain} {b : BoundName} (hb : chain.ForwardsCall g b) :
    chain.ForwardsCall g' b := by
  rcases hb with ⟨hwhole, member, hmember, hsome⟩ | ⟨hnamed, hsome, hinvoked⟩
  · exact .inl ⟨hwhole, member, h.calledMembers _ hmember, hsome⟩
  · exact .inr ⟨hnamed, hsome, h.isInvoked hinvoked⟩

/-- **A call through a chain stays one.** -/
theorem calledThrough {chain : ReexportChain} {b : BoundName} (hb : chain.CalledThrough g b) :
    chain.CalledThrough g' b := by
  refine ⟨h.forwardsCall hb.1, fun hunopened => hb.2 ?_⟩
  obtain ⟨hnamed, horigin, hmembers⟩ := hunopened
  refine ⟨hnamed, horigin, ?_⟩
  by_contra hne
  exact h.calledMembers_ne_nil hne hmembers

/-- **What is used of a binding stays used**, also where it was only mentioned before. -/
theorem used_ofBinding (c : Component) (r : ImportRecord) (b : BoundName) :
    (Evidence.ofBinding c g r b).used ⊆ (Evidence.ofBinding c g' r b).used := by
  rw [Evidence.ofBinding, Evidence.ofBinding]
  split
  · rw [Evidence.used_ofWholeModule, Evidence.used_ofWholeModule]
    refine List.append_subset.2 ⟨fun member hmember => ?_,
      List.Subset.trans (h.calledMembers b.localName) (List.subset_append_right ..)⟩
    split at hmember
    · rename_i hself
      rw [if_pos (h.isCalled hself)]
      exact List.mem_append_left _ hmember
    · cases hmember
  · rw [Evidence.used_ofNamed, Evidence.used_ofNamed]
    intro member hmember
    split at hmember
    · rename_i hinvoked
      rwa [if_pos (h.isInvoked hinvoked)]
    · cases hmember

/-- **What is used through a chain stays used.** -/
theorem used_ofChainBinding (chain : ReexportChain) (b : BoundName) :
    (Evidence.ofChainBinding chain g b).used ⊆ (Evidence.ofChainBinding chain g' b).used := by
  rw [Evidence.ofChainBinding, Evidence.ofChainBinding]
  split
  · exact List.filterMap_subset _ (h.calledMembers b.localName)
  · cases chain.originName? b.imported with
    | none => exact List.Subset.refl _
    | some origin =>
      dsimp only
      split
      · exact h.calledMembers b.localName
      · intro member hmember
        split at hmember
        · rename_i hinvoked
          rwa [if_pos (h.isInvoked hinvoked)]
        · split at hmember <;> cases hmember

end CallGraph.GrowsTo

namespace Project.GrowsTo

variable {p p' : Project} (h : p.GrowsTo p') {c : Component} {t : TraceIndex}
include h

theorem exists_file {file : ParsedFile} (hfile : file ∈ p.files) :
    ∃ file' ∈ p'.files, file.GrowsTo file' := by
  obtain ⟨i, hi⟩ := List.getElem?_of_mem hfile
  obtain ⟨file', hi', hgrows⟩ := h i file hi
  exact ⟨file', List.mem_of_getElem? hi', hgrows⟩

/-- **A traced import stays at its place**, in a file that has grown. -/
theorem place? {traced : TracedImport} {file : ParsedFile} {r : ImportRecord}
    (hplace : traced.place? p = some (file, r)) :
    ∃ file', traced.place? p' = some (file', r) ∧ file.GrowsTo file' := by
  obtain ⟨hfile, hr⟩ := TracedImport.place?_eq_some_iff.1 hplace
  obtain ⟨file', hfile', hgrows⟩ := h _ _ hfile
  have hr' : file'.imports[traced.recordIndex]? = some r := by
    obtain ⟨hlt, rfl⟩ := List.getElem?_eq_some_iff.1 hr
    exact List.prefix_iff_getElem?.1 hgrows.imports _ hlt
  exact ⟨file', TracedImport.place?_eq_some_iff.2 ⟨hfile', hr'⟩, hgrows⟩

theorem counted (hcounted : Verdict.Counted c p t) : Verdict.Counted c p' t := by
  obtain ⟨file, hfile, r, hr, hcounts⟩ := hcounted
  obtain ⟨file', hfile', hgrows⟩ := h.exists_file hfile
  exact ⟨file', hfile', r, hgrows.imports.subset hr, hcounts⟩

theorem usedDirectly (hused : Verdict.UsedDirectly c p) : Verdict.UsedDirectly c p' := by
  obtain ⟨file, hfile, r, hr, hnames, hused⟩ := hused
  obtain ⟨file', hfile', hgrows⟩ := h.exists_file hfile
  exact ⟨file', hfile', r, hgrows.imports.subset hr, hnames, hgrows.callGraph.usedIn_record hused⟩

theorem usedThroughChain (hused : Verdict.UsedThroughChain c p t) :
    Verdict.UsedThroughChain c p' t := by
  obtain ⟨traced, htraced, file, r, hplace, chain, hchain, hmatches, b, hb, hcalled⟩ := hused
  obtain ⟨file', hplace', hgrows⟩ := h.place? hplace
  exact ⟨traced, htraced, file', r, hplace', chain, hchain, hmatches, b, hb,
    hgrows.callGraph.calledThrough hcalled⟩

/-- **Every piece of evidence has one in the larger project** that uses all that it uses. -/
theorem exists_piece {e : Evidence} (he : e ∈ Verdict.pieces c p t) :
    ∃ e' ∈ Verdict.pieces c p' t, e.used ⊆ e'.used := by
  rcases List.mem_append.1 he with he | he
  · obtain ⟨i, file, hfile, r, hr, hdirect, rfl⟩ := Verdict.mem_directEvidence.1 he
    obtain ⟨file', hfile', hgrows⟩ := h i file hfile
    refine ⟨_, List.mem_append_left _ (Verdict.mem_directEvidence.2
      ⟨i, file', hfile', r, hgrows.imports.subset hr, hdirect, rfl⟩), ?_⟩
    rw [Evidence.used_ofDirect, Evidence.used_ofDirect]
    split
    · exact List.Subset.refl _
    · exact flatMap_subset_flatMap fun b _ => hgrows.callGraph.used_ofBinding c r b
  · obtain ⟨traced, htraced, file, r, hplace, chain, hchain, hmatches, rfl⟩ :=
      Verdict.mem_chainEvidence.1 he
    obtain ⟨file', hplace', hgrows⟩ := h.place? hplace
    refine ⟨_, List.mem_append_right _ (Verdict.mem_chainEvidence.2
      ⟨traced, htraced, file', r, hplace', chain, hchain, hmatches, rfl⟩), ?_⟩
    rw [Evidence.used_ofChain, Evidence.used_ofChain]
    exact flatMap_subset_flatMap fun b _ => hgrows.callGraph.used_ofChainBinding chain b

/-- **What is used stays used.** -/
theorem used_evidence : (Verdict.evidence c p t).used ⊆ (Verdict.evidence c p' t).used := by
  intro member hmember
  rw [Verdict.evidence, Evidence.used_sum] at hmember ⊢
  obtain ⟨e, he, hused⟩ := List.mem_flatMap.1 hmember
  obtain ⟨e', he', hsub⟩ := h.exists_piece he
  exact List.mem_flatMap.2 ⟨e', he', hsub hused⟩

/-- What shows a use, counts directly or is seen at all stays so. -/
theorem flags_evidence :
    ((Verdict.evidence c p t).showsUse = true → (Verdict.evidence c p' t).showsUse = true) ∧
    ((Verdict.evidence c p t).directImport = true →
      (Verdict.evidence c p' t).directImport = true) ∧
    ((Verdict.evidence c p t).isSeen = true → (Verdict.evidence c p' t).isSeen = true) := by
  refine ⟨fun huse => ?_, fun hdirect => ?_, fun hseen => ?_⟩
  · rw [Verdict.showsUse_evidence_iff] at huse ⊢
    exact huse.imp h.usedDirectly h.usedThroughChain
  · rw [Verdict.directImport_evidence_iff] at hdirect ⊢
    exact h.counted hdirect
  · have hseen' : ∀ q, (Verdict.evidence c q t).isSeen = true ↔ Verdict.pieces c q t ≠ [] :=
      fun q => Verdict.flag_evidence_iff_pieces Evidence.isFlag_isSeen
        fun e he => (Verdict.isPiece_of_mem_pieces he).seen
    rw [hseen'] at hseen ⊢
    obtain ⟨e, he⟩ := List.exists_mem_of_ne_nil _ hseen
    obtain ⟨e', he', -⟩ := h.exists_piece he
    exact List.ne_nil_of_mem he'

end Project.GrowsTo

namespace Verdict

/-- The rank of the status where every file was looked at. -/
def evidenceRank (e : Evidence) : Nat :=
  if e.showsUse then 3 else if e.directImport then 2 else if e.isSeen then 1 else 0

theorem rank?_conclude {p : Project} (hcompleted : p.completed = true) (e : Evidence) :
    (conclude p e).1.rank? = some (evidenceRank e) := by
  rw [status_conclude, evidenceRank, hcompleted]
  cases huse : e.showsUse
  · cases hdirect : e.directImport
    · cases hchain : e.chain <;> simp [Evidence.isSeen, hdirect, hchain, Status.rank?]
    · rfl
  · rfl

/-- **More evidence has no lower rank.** -/
theorem evidenceRank_le {e e' : Evidence} (huse : e.showsUse = true → e'.showsUse = true)
    (hdirect : e.directImport = true → e'.directImport = true)
    (hseen : e.isSeen = true → e'.isSeen = true) : evidenceRank e ≤ evidenceRank e' := by
  unfold evidenceRank
  split
  · rw [if_pos (huse ‹_›)]
  · split
    · rw [if_pos (hdirect ‹_›)]
      split <;> omega
    · split
      · rw [if_pos (hseen ‹_›)]
        split
        · omega
        · split <;> omega
      · exact Nat.zero_le _

/-- **More evidence never lowers a verdict.**  For every component and index of traces, and two
projects of which every file was looked at and the first one has a file: if the second project
has the files of the first at their places, with their imports at their places and their called
and mentioned names, and maybe more of each, then its status is at least as high, and used
members and affected functions that are called stay so. -/
theorem classify_risesTo (p p' : Project) (t : TraceIndex) (c : Component) (h : p.GrowsTo p')
    (hfiles : p.files ≠ []) (hcompleted : p.completed = true) (hcompleted' : p'.completed = true) :
    (classify p t c).RisesTo (classify p' t c) := by
  have hfiles' : p'.files ≠ [] := by
    obtain ⟨file, hfile⟩ := List.exists_mem_of_ne_nil _ hfiles
    obtain ⟨file', hfile', -⟩ := h.exists_file hfile
    exact List.ne_nil_of_mem hfile'
  obtain ⟨hused, hvulnerable⟩ := usage_subset hfiles hfiles' (h.used_evidence (c := c) (t := t))
  obtain ⟨huse, hdirect, hseen⟩ := h.flags_evidence (c := c) (t := t)
  refine ⟨⟨evidenceRank (evidence c p t), evidenceRank (evidence c p' t), ?_, ?_,
    evidenceRank_le huse hdirect hseen⟩, hused, hvulnerable⟩
  · rw [status_classify hfiles, rank?_conclude hcompleted]
  · rw [status_classify hfiles', rank?_conclude hcompleted']

/-- The hypotheses are satisfiable where a binding gives other evidence than before: `a.ts`
mentions `x` of `q`, then calls it, and imports more; `b.ts` is added. -/
theorem classify_risesTo_called :
    let named : ImportRecord := ⟨"q", .named, [⟨"x", "x"⟩], false, ⟨⟨"a.ts"⟩, 1, 1, ""⟩⟩
    let whole : ImportRecord := ⟨"q", .whole, [⟨"*", "q"⟩], false, ⟨⟨"a.ts"⟩, 2, 1, ""⟩⟩
    let a : ParsedFile := ⟨⟨"/a.ts"⟩, ⟨"a.ts"⟩, [named],
      { referencedNames := NameSet.ofList ["x"] }⟩
    let a' : ParsedFile := ⟨⟨"/a.ts"⟩, ⟨"a.ts"⟩, [named, whole],
      { calledNames := NameSet.ofList ["x"], referencedNames := NameSet.ofList ["f", "x"]
        dynamicCode := [⟨.eval, ⟨⟨"a.ts"⟩, 3, 1, ""⟩, ""⟩] }⟩
    let b : ParsedFile := ⟨⟨"/b.ts"⟩, ⟨"b.ts"⟩, [], {}⟩
    let p : Project := ⟨⟨"/"⟩, [a], [], 1, true⟩
    let p' : Project := ⟨⟨"/"⟩, [a', b], [], 2, true⟩
    let c : Component := { name := "q", vulnerabilities := [⟨"v", none, ["x"]⟩] }
    p.GrowsTo p' ∧ p.files ≠ [] ∧ p.completed = true ∧ p'.completed = true ∧
      (classify p {} c).status = .imported ∧ (classify p' {} c).status = .reachable ∧
      (classify p {} c).RisesTo (classify p' {} c) := by
  intro named whole a a' b p p' c
  have hfile : a.GrowsTo a' := ⟨⟨[whole], rfl⟩, by decide, by decide⟩
  have hgrows : p.GrowsTo p' := by
    intro i file hi
    have hmem : i = 0 ∧ a = file := by simpa [p, List.getElem?_singleton] using hi
    obtain ⟨rfl, rfl⟩ := hmem
    exact ⟨a', rfl, hfile⟩
  exact ⟨hgrows, by simp [p], rfl, rfl, by decide +kernel, by decide +kernel,
    classify_risesTo p p' {} c hgrows (by simp [p]) rfl rfl⟩

end Verdict
end DependencyUse
