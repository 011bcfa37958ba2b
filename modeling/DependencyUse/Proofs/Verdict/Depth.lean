/-
# Deeper traces keep the evidence

With more depth the traces of a project find more chains, and none is lost.  Evidence can
still move: a re-export that counted directly does not any more once a chain ends at it.

| evidence of a shallow trace | in a deeper trace |
| --- | --- |
| of a chain | the same (`chainEvidence_mono`) |
| of an import that is no re-export | the same (`mem_directEvidence_of_uses`) |
| of a re-export | the same, or that of a chain which ends there (`pieces_ne_nil_mono`) |

A re-export uses nothing, so what is used is never lost.  That its component is still found
needs the chain that ends there to end at the same module.
-/

import DependencyUse.Analysis
import DependencyUse.Proofs.Reexport.History
import DependencyUse.Proofs.Verdict.Consistency
import Mathlib.Data.List.Forall2

namespace DependencyUse

/-- The second verdict keeps what the first one found. -/
structure ComponentResult.KeptBy (r deeper : ComponentResult) : Prop where
  reachable : r.status = .reachable → deeper.status = .reachable
  used : r.usage.usedMembers ⊆ deeper.usage.usedMembers
  vulnerable : r.usage.vulnerableFunctionsCalled ⊆ deeper.usage.vulnerableFunctionsCalled
  found : r.status = .imported ∨ r.status = .indirect →
    deeper.status = .reachable ∨ deeper.status = .imported ∨ deeper.status = .indirect

namespace TraceIndex

variable {d : Disk} {p : Project}

theorem fitsIn_build (d : Disk) (maxDepth : Nat) (p : Project) :
    (build d maxDepth p).FitsIn p := by
  rintro ⟨i, j, o⟩ htraced
  obtain ⟨file, r, hfile, hr, -⟩ := mem_traced_build.1 htraced
  simp [TracedImport.place?, hfile, hr]

/-- **A deeper index has every chain of a shallower one**, at the same import. -/
theorem exists_traced_mono {maxDepth deeper : Nat} (hle : maxDepth ≤ deeper)
    {traced : TracedImport} (htraced : traced ∈ (build d maxDepth p).traced)
    {chain : ReexportChain} (hchain : chain ∈ traced.outcome.chains) :
    ∃ o, ⟨traced.fileIndex, traced.recordIndex, o⟩ ∈ (build d deeper p).traced ∧
      chain ∈ o.chains := by
  obtain ⟨i, j, o⟩ := traced
  obtain ⟨file, r, hfile, hr, hfollowed, rfl, -⟩ := mem_traced_build.1 htraced
  have hmore := Trace.mem_chains_trace_mono hle hchain
  exact ⟨_, mem_traced_build.2 ⟨file, r, hfile, hr, hfollowed, rfl,
    .inl (List.ne_nil_of_mem hmore)⟩, hmore⟩

end TraceIndex

namespace Verdict

variable {d : Disk} {p : Project} {c : Component} {t t' : TraceIndex}

/-- **The evidence of chains is kept.** -/
theorem chainEvidence_mono {maxDepth deeper : Nat} (hle : maxDepth ≤ deeper) :
    chainEvidence c p (TraceIndex.build d maxDepth p)
      ⊆ chainEvidence c p (TraceIndex.build d deeper p) := by
  intro e he
  obtain ⟨traced, htraced, file, r, hplace, chain, hchain, hmatches, rfl⟩ :=
    mem_chainEvidence.1 he
  obtain ⟨o, ho, hmore⟩ := TraceIndex.exists_traced_mono hle htraced hchain
  exact mem_chainEvidence.2 ⟨_, ho, file, r, hplace, chain, hmore, hmatches, rfl⟩

/-- Direct evidence of a use does not hang on the traces. -/
theorem mem_directEvidence_of_uses {e : Evidence} (he : e ∈ directEvidence c p t)
    (huses : e.showsUse = true) : e ∈ directEvidence c p t' := by
  obtain ⟨i, file, hfile, r, hr, hdirect, rfl⟩ := mem_directEvidence.1 he
  have hreexport : r.isReexport = false := (Evidence.showsUse_ofDirect_iff.1 huses).1
  refine mem_directEvidence.2 ⟨i, file, hfile, r, hr, isDirect_iff.2 ?_, rfl⟩
  exact ⟨(isDirect_iff.1 hdirect).1, fun h => by rw [hreexport] at h; cases h.1⟩

/-- A piece that shows a use is kept. -/
theorem mem_pieces_mono_of_uses {maxDepth deeper : Nat} (hle : maxDepth ≤ deeper) {e : Evidence}
    (he : e ∈ pieces c p (TraceIndex.build d maxDepth p)) (huses : e.showsUse = true) :
    e ∈ pieces c p (TraceIndex.build d deeper p) := by
  rcases List.mem_append.1 he with he | he
  · exact List.mem_append_left _ (mem_directEvidence_of_uses he huses)
  · exact List.mem_append_right _ (chainEvidence_mono hle he)

theorem showsUse_evidence_mono {maxDepth deeper : Nat} (hle : maxDepth ≤ deeper)
    (h : (evidence c p (TraceIndex.build d maxDepth p)).showsUse = true) :
    (evidence c p (TraceIndex.build d deeper p)).showsUse = true := by
  obtain ⟨e, he, huses⟩ := (Evidence.isFlag_showsUse.sum_iff _).1 h
  exact (Evidence.isFlag_showsUse.sum_iff _).2 ⟨e, mem_pieces_mono_of_uses hle he huses, huses⟩

/-- **What is used is kept.** -/
theorem used_evidence_mono {maxDepth deeper : Nat} (hle : maxDepth ≤ deeper) :
    (evidence c p (TraceIndex.build d maxDepth p)).used
      ⊆ (evidence c p (TraceIndex.build d deeper p)).used := by
  intro member hmember
  rw [evidence, Evidence.used_sum] at hmember ⊢
  obtain ⟨e, he, hused⟩ := List.mem_flatMap.1 hmember
  have huses := showsUse_of_mem_pieces he (List.ne_nil_of_mem hused)
  exact List.mem_flatMap.2 ⟨e, mem_pieces_mono_of_uses hle he huses, hused⟩

/-- **What an import names has evidence**, where places tell modules apart. -/
theorem pieces_ne_nil_of_named (hfits : t.FitsIn p) (hapart : t.TellsApart p) (h : Named c p) :
    pieces c p t ≠ [] := by
  have hsome : ∀ {f : Evidence → Bool}, Evidence.IsFlag f → f (evidence c p t) = true →
      pieces c p t ≠ [] := by
    intro f hf hset
    obtain ⟨e, he, -⟩ := (hf.sum_iff _).1 hset
    exact List.ne_nil_of_mem he
  by_cases hcounted : Counted c p t
  · exact hsome Evidence.isFlag_directImport (directImport_evidence_iff.2 hcounted)
  · -- the re-export is passed over, so a chain ends at its place, and at its module
    have hreached := reached_of_skipped hapart h hcounted
    exact hsome Evidence.isFlag_chain ((chain_evidence_iff hfits hcounted).2 hreached)

/-- **Evidence may move, but there is some.** -/
theorem pieces_ne_nil_mono {maxDepth deeper : Nat} (hle : maxDepth ≤ deeper)
    (hapart : (TraceIndex.build d deeper p).TellsApart p)
    (h : pieces c p (TraceIndex.build d maxDepth p) ≠ []) :
    pieces c p (TraceIndex.build d deeper p) ≠ [] := by
  obtain ⟨e, he⟩ := List.exists_mem_of_ne_nil _ h
  rcases List.mem_append.1 he with he | he
  · obtain ⟨i, file, hfile, r, hr, hdirect, -⟩ := mem_directEvidence.1 he
    have hnamed : Named c p :=
      ⟨file, List.mem_of_getElem? hfile, r, hr, (isDirect_iff.1 hdirect).1⟩
    exact pieces_ne_nil_of_named (TraceIndex.fitsIn_build d deeper p) hapart hnamed
  · exact List.ne_nil_of_mem (List.mem_append_right _ (chainEvidence_mono hle he))

/-- **A deeper trace keeps what a verdict found.** -/
theorem keptBy_classify {maxDepth deeper : Nat} (hle : maxDepth ≤ deeper)
    (hapart : (TraceIndex.build d deeper p).TellsApart p) (c : Component) :
    (classify p (TraceIndex.build d maxDepth p) c).KeptBy
      (classify p (TraceIndex.build d deeper p) c) := by
  by_cases hfiles : p.files = []
  · have hnothing : ∀ t, classify p t c = nothingParsed c p := fun t => by simp [classify, hfiles]
    rw [hnothing, hnothing]
    exact ⟨id, List.Subset.refl _, List.Subset.refl _, by simp [nothingParsed]⟩
  obtain ⟨hused, hvulnerable⟩ := usage_subset hfiles hfiles (used_evidence_mono (c := c) hle)
  refine ⟨fun hstatus => ?_, hused, hvulnerable, fun hstatus => ?_⟩
  · rw [status_classify hfiles, status_conclude_eq_reachable_iff] at hstatus ⊢
    exact showsUse_evidence_mono hle hstatus
  · rw [status_classify hfiles] at hstatus ⊢
    have hsome : pieces c p (TraceIndex.build d maxDepth p) ≠ [] := by
      rw [ne_eq, ← status_conclude_nothing_iff]
      rcases hstatus with hstatus | hstatus <;> simp [hstatus]
    have hmore := pieces_ne_nil_mono hle hapart hsome
    rw [ne_eq, ← status_conclude_nothing_iff] at hmore
    cases hdeeper : (conclude p (evidence c p (TraceIndex.build d deeper p))).1 <;>
      simp [hdeeper] at hmore ⊢

/-- **More depth never loses evidence.**  For every disk, every two options of which the
second allows the longer chains, every project in which the chains of the deeper traces end
where no other module is re-exported, and all components: what is reachable stays
reachable, used members and affected functions that are called stay so, and what is
imported or indirect is still found. -/
theorem judge_keptBy_deeper (d : Disk) (o o' : Options) (p : Project)
    (components : List Component) (hle : o.maxReexportDepth ≤ o'.maxReexportDepth)
    (hapart : (Analysis.traces d o' p).TellsApart p) :
    List.Forall₂ ComponentResult.KeptBy (Analysis.judge d o p components)
      (Analysis.judge d o' p components) := by
  show List.Forall₂ _ (components.map _) (components.map _)
  rw [List.forall₂_map_left_iff, List.forall₂_map_right_iff]
  exact List.forall₂_same.2 fun c _ => keptBy_classify hle hapart c

/-- The hypotheses are satisfiable where evidence moves: `/a.ts` calls `x` of `/b.ts`, which
forwards everything of `/c.ts`, which forwards `x` of `q`.  With one file allowed, `q` is
imported by its re-export; with two a chain ends there, and `q` is reachable. -/
theorem judge_keptBy_deeper_barrels :
    let d : Disk := ⟨.dir [("a.ts", .file (.text "")), ("b.ts", .file (.text "")),
      ("c.ts", .file (.text ""))], [], none, none⟩
    let a : ParsedFile := ⟨⟨"/a.ts"⟩, ⟨"a.ts"⟩,
      [⟨"./b", .named, [⟨"x", "x"⟩], false, ⟨⟨"a.ts"⟩, 1, 1, ""⟩⟩],
      { calledNames := NameSet.ofList ["x"] }⟩
    let b : ParsedFile := ⟨⟨"/b.ts"⟩, ⟨"b.ts"⟩,
      [⟨"./c", .reexportAll, [], false, ⟨⟨"b.ts"⟩, 1, 1, ""⟩⟩], {}⟩
    let c : ParsedFile := ⟨⟨"/c.ts"⟩, ⟨"c.ts"⟩,
      [⟨"q", .reexport, [⟨"x", "x"⟩], false, ⟨⟨"c.ts"⟩, 1, 1, ""⟩⟩], {}⟩
    let p : Project := ⟨⟨"/"⟩, [a, b, c], [], 3, true⟩
    let shallow : Options := { maxReexportDepth := 1 }
    let deep : Options := { maxReexportDepth := 2 }
    shallow.maxReexportDepth ≤ deep.maxReexportDepth ∧ (Analysis.traces d deep p).TellsApart p ∧
      (Analysis.judge d shallow p [{ name := "q" }]).map ComponentResult.status = [.imported] ∧
      (Analysis.judge d deep p [{ name := "q" }]).map ComponentResult.status = [.reachable] ∧
      List.Forall₂ ComponentResult.KeptBy (Analysis.judge d shallow p [{ name := "q" }])
        (Analysis.judge d deep p [{ name := "q" }]) := by
  intro d a b c p shallow deep
  have hle : shallow.maxReexportDepth ≤ deep.maxReexportDepth := by decide
  have hapart : (Analysis.traces d deep p).TellsApart p := by
    unfold TraceIndex.TellsApart
    decide +kernel
  exact ⟨hle, hapart, by decide +kernel, by decide +kernel,
    judge_keptBy_deeper d shallow deep p [{ name := "q" }] hle hapart⟩

end Verdict
end DependencyUse
