/-
# How a verdict is decided

The status of a component, said on the imports and chains of a project:

| status | exactly when |
| --- | --- |
| reachable | an import of the component is used, or a call is seen through a chain that ends at it |
| imported | not so, and an import counts directly |
| indirect | not so either, and a chain ends at it |
| unknown | no import names it and no chain ends at it, and not every file was looked at |
| not reachable | the same, and every file was looked at |

A re-export at which a chain ends does not count directly.  No evidence is lost by that:
where places tell modules apart, the chain ends at the same module as the re-export, so
it is evidence for the same component (`reached_of_skipped`).

One kind of call is overlooked.  A chain can forward a module as a whole, under a name.
Calls of its members are seen through the chain, and a call of the module itself is not,
though it counts where the module is imported directly.  If that call is the only use, the
status says that there is none (`status_accounts_iff`).
-/

import DependencyUse.Proofs.Verdict.Evidence
import DependencyUse.Verdict.Classify

namespace DependencyUse

/-- The file and the record of a traced import. -/
def TracedImport.place? (p : Project) (traced : TracedImport) :
    Option (ParsedFile × ImportRecord) :=
  (p.files[traced.fileIndex]?).bind fun file =>
    (file.imports[traced.recordIndex]?).map fun r => (file, r)

theorem TracedImport.place?_eq_some_iff {p : Project} {traced : TracedImport} {file : ParsedFile}
    {r : ImportRecord} :
    traced.place? p = some (file, r) ↔
      p.files[traced.fileIndex]? = some file ∧ file.imports[traced.recordIndex]? = some r := by
  rw [place?]
  cases p.files[traced.fileIndex]? with
  | none => simp
  | some found =>
    simp only [Option.bind_some, Option.map_eq_some_iff, Prod.mk.injEq, Option.some.injEq]
    constructor
    · rintro ⟨_, hr, rfl, rfl⟩
      exact ⟨rfl, hr⟩
    · rintro ⟨rfl, hr⟩
      exact ⟨r, hr, rfl, rfl⟩

/-- Every traced import is one of the project. -/
def TraceIndex.FitsIn (t : TraceIndex) (p : Project) : Prop :=
  ∀ traced ∈ t.traced, (traced.place? p).isSome = true

/-- A re-export at the place where a chain ends names the module of the chain. -/
def TraceIndex.TellsApart (t : TraceIndex) (p : Project) : Prop :=
  ∀ file ∈ p.files, ∀ r ∈ file.imports, r.isReexport = true →
    ∀ chain ∈ t.chains, chain.origin.same r.location = true → chain.specifier = r.specifier

namespace Verdict

/-- The record is an import of the component that is not of types only. -/
def Names (c : Component) (r : ImportRecord) : Prop :=
  r.typeOnly = false ∧ c.matchesModule r.specifier = true

/-- Some import of the project names the component. -/
def Named (c : Component) (p : Project) : Prop :=
  ∃ file ∈ p.files, ∃ r ∈ file.imports, Names c r

/-- Some chain ends at the component. -/
def Reached (c : Component) (t : TraceIndex) : Prop :=
  ∃ chain ∈ t.chains, c.matchesModule chain.specifier = true

/-- Some import names the component and is no re-export at which a chain ends. -/
def Counted (c : Component) (p : Project) (t : TraceIndex) : Prop :=
  ∃ file ∈ p.files, ∃ r ∈ file.imports, Names c r ∧
    ¬ (r.isReexport = true ∧ ∃ chain ∈ t.chains, chain.origin.same r.location = true)

/-- Some import of the component is used. -/
def UsedDirectly (c : Component) (p : Project) : Prop :=
  ∃ file ∈ p.files, ∃ r ∈ file.imports, Names c r ∧ r.UsedIn file.callGraph

/-- Some chain that ends at the component is called through. -/
def UsedThroughChain (c : Component) (p : Project) (t : TraceIndex) : Prop :=
  ∃ traced ∈ t.traced, ∃ file r, traced.place? p = some (file, r) ∧
    ∃ chain ∈ traced.outcome.chains, c.matchesModule chain.specifier = true ∧
      ∃ b ∈ r.names, chain.CalledThrough file.callGraph b

/-- Some chain that ends at the component forwards what is called. -/
def CalledThroughChain (c : Component) (p : Project) (t : TraceIndex) : Prop :=
  ∃ traced ∈ t.traced, ∃ file r, traced.place? p = some (file, r) ∧
    ∃ chain ∈ traced.outcome.chains, c.matchesModule chain.specifier = true ∧
      ∃ b ∈ r.names, chain.ForwardsCall file.callGraph b

/-- The status accounts for what the project shows of the component: nothing is found
exactly where no import names it and no chain ends at it, and what is found is reachable
exactly where an import is used or a chain forwards what is called. -/
structure Accounts (c : Component) (p : Project) (t : TraceIndex) (status : Status) : Prop where
  found : (status = .notReachable ∨ status = .unknown) ↔ ¬ Named c p ∧ ¬ Reached c t
  unfinished : ¬ Named c p ∧ ¬ Reached c t → (status = .unknown ↔ p.completed = false)
  used : Named c p ∨ Reached c t →
    (status = .reachable ↔ UsedDirectly c p ∨ CalledThroughChain c p t)
  unused : Named c p ∨ Reached c t → ¬ (UsedDirectly c p ∨ CalledThroughChain c p t) →
    (status = .imported ↔ Counted c p t) ∧ (status = .indirect ↔ ¬ Counted c p t)

/-- All that uses the component are calls of it as a whole module that a chain forwards. -/
def OnlyCalledWhole (c : Component) (p : Project) (t : TraceIndex) : Prop :=
  CalledThroughChain c p t ∧ ¬ (UsedDirectly c p ∨ UsedThroughChain c p t)

theorem isDirect_iff {c : Component} {t : TraceIndex} {r : ImportRecord} :
    isDirect c t r = true ↔ Names c r ∧
      ¬ (r.isReexport = true ∧ ∃ chain ∈ t.chains, chain.origin.same r.location = true) := by
  simp only [isDirect, Names, TraceIndex.isOrigin, Bool.and_eq_true, Bool.not_eq_true',
    Bool.and_eq_false_iff, List.any_eq_false, not_and, not_exists]
  cases r.isReexport <;> simp

/-- The pieces of direct evidence are those of the imports that count. -/
theorem mem_directEvidence {c : Component} {p : Project} {t : TraceIndex} {e : Evidence} :
    e ∈ directEvidence c p t ↔ ∃ i file, p.files[i]? = some file ∧ ∃ r ∈ file.imports,
      isDirect c t r = true ∧ e = Evidence.ofDirect c file.callGraph i r := by
  simp only [directEvidence, List.mem_flatMap, List.mem_zipIdx_iff_getElem?, Prod.exists,
    List.mem_map, List.mem_filter]
  constructor
  · rintro ⟨file, i, hfile, r, ⟨hr, hdirect⟩, rfl⟩
    exact ⟨i, file, hfile, r, hr, hdirect, rfl⟩
  · rintro ⟨i, file, hfile, r, hr, hdirect, rfl⟩
    exact ⟨file, i, hfile, r, ⟨hr, hdirect⟩, rfl⟩

/-- The pieces of chain evidence are those of the chains that end at the component. -/
theorem mem_chainEvidence {c : Component} {p : Project} {t : TraceIndex} {e : Evidence} :
    e ∈ chainEvidence c p t ↔ ∃ traced ∈ t.traced, ∃ file r,
      traced.place? p = some (file, r) ∧ ∃ chain ∈ traced.outcome.chains,
        c.matchesModule chain.specifier = true ∧
          e = Evidence.ofChain file.callGraph traced.fileIndex r chain := by
  rw [chainEvidence, List.mem_flatMap]
  refine exists_congr fun traced => and_congr_right fun _ => ?_
  rw [tracedEvidence, TracedImport.place?]
  cases hfile : p.files[traced.fileIndex]? with
  | none => simp
  | some file =>
    cases hr : file.imports[traced.recordIndex]? with
    | none => simp [hr]
    | some r =>
      simp only [Option.bind_some, hr, Option.map_some, Option.some.injEq, Prod.mk.injEq,
        List.mem_map, List.mem_filter]
      constructor
      · rintro ⟨chain, ⟨hchain, hmatch⟩, rfl⟩
        exact ⟨file, r, ⟨rfl, rfl⟩, chain, hchain, hmatch, rfl⟩
      · rintro ⟨_, _, ⟨rfl, rfl⟩, chain, hchain, hmatch, rfl⟩
        exact ⟨chain, ⟨hchain, hmatch⟩, rfl⟩

/-- A flag of all evidence is set by an import that counts or by a chain. -/
theorem flag_evidence_iff {f : Evidence → Bool} (hf : Evidence.IsFlag f) {c : Component}
    {p : Project} {t : TraceIndex} :
    f (evidence c p t) = true ↔
      (∃ e ∈ directEvidence c p t, f e = true) ∨ ∃ e ∈ chainEvidence c p t, f e = true := by
  rw [evidence, hf.sum_iff]
  constructor
  · rintro ⟨e, he, hset⟩
    rcases List.mem_append.1 he with he | he
    · exact .inl ⟨e, he, hset⟩
    · exact .inr ⟨e, he, hset⟩
  · rintro (⟨e, he, hset⟩ | ⟨e, he, hset⟩)
    · exact ⟨e, List.mem_append_left _ he, hset⟩
    · exact ⟨e, List.mem_append_right _ he, hset⟩

/-- **The evidence shows a use** exactly when an import of the component is used or a
chain is called through. -/
theorem showsUse_evidence_iff {c : Component} {p : Project} {t : TraceIndex} :
    (evidence c p t).showsUse = true ↔ UsedDirectly c p ∨ UsedThroughChain c p t := by
  rw [flag_evidence_iff Evidence.isFlag_showsUse]
  refine or_congr ?_ ?_
  · constructor
    · rintro ⟨e, he, hset⟩
      obtain ⟨i, file, hfile, r, hr, hdirect, rfl⟩ := mem_directEvidence.1 he
      exact ⟨file, List.mem_of_getElem? hfile, r, hr, (isDirect_iff.1 hdirect).1,
        Evidence.showsUse_ofDirect_iff.1 hset⟩
    · rintro ⟨file, hfile, r, hr, hnames, hused⟩
      obtain ⟨i, hi⟩ := List.getElem?_of_mem hfile
      -- a record that is used is no re-export, so it is never passed over
      have hdirect : isDirect c t r = true :=
        isDirect_iff.2 ⟨hnames, fun h => by rw [hused.1] at h; cases h.1⟩
      exact ⟨_, mem_directEvidence.2 ⟨i, file, hi, r, hr, hdirect, rfl⟩,
        Evidence.showsUse_ofDirect_iff.2 hused⟩
  · constructor
    · rintro ⟨e, he, hset⟩
      obtain ⟨traced, htraced, file, r, hplace, chain, hchain, hmatch, rfl⟩ :=
        mem_chainEvidence.1 he
      exact ⟨traced, htraced, file, r, hplace, chain, hchain, hmatch,
        Evidence.showsUse_ofChain_iff.1 hset⟩
    · rintro ⟨traced, htraced, file, r, hplace, chain, hchain, hmatch, hcalled⟩
      exact ⟨_, mem_chainEvidence.2 ⟨traced, htraced, file, r, hplace, chain, hchain, hmatch, rfl⟩,
        Evidence.showsUse_ofChain_iff.2 hcalled⟩

/-- **The evidence holds a direct import** exactly when an import counts. -/
theorem directImport_evidence_iff {c : Component} {p : Project} {t : TraceIndex} :
    (evidence c p t).directImport = true ↔ Counted c p t := by
  rw [flag_evidence_iff Evidence.isFlag_directImport]
  constructor
  · rintro (⟨e, he, -⟩ | ⟨e, he, hset⟩)
    · obtain ⟨i, file, hfile, r, hr, hdirect, -⟩ := mem_directEvidence.1 he
      exact ⟨file, List.mem_of_getElem? hfile, r, hr, isDirect_iff.1 hdirect⟩
    · obtain ⟨traced, -, file, r, -, chain, -, -, rfl⟩ := mem_chainEvidence.1 he
      rw [(Evidence.flags_ofChain _ _ _ _).2] at hset
      cases hset
  · rintro ⟨file, hfile, r, hr, hcounted⟩
    obtain ⟨i, hi⟩ := List.getElem?_of_mem hfile
    exact .inl ⟨_, mem_directEvidence.2 ⟨i, file, hi, r, hr, isDirect_iff.2 hcounted, rfl⟩,
      Evidence.directImport_ofDirect _ _ _ _⟩

/-- **Without an import that counts, the evidence holds a chain** exactly when some chain
ends at the component. -/
theorem chain_evidence_iff {c : Component} {p : Project} {t : TraceIndex} (hfits : t.FitsIn p)
    (hcounted : ¬ Counted c p t) : (evidence c p t).chain = true ↔ Reached c t := by
  rw [flag_evidence_iff Evidence.isFlag_chain]
  constructor
  · rintro (⟨e, he, -⟩ | ⟨e, he, -⟩)
    · obtain ⟨i, file, hfile, r, hr, hdirect, -⟩ := mem_directEvidence.1 he
      exact absurd ⟨file, List.mem_of_getElem? hfile, r, hr, isDirect_iff.1 hdirect⟩ hcounted
    · obtain ⟨traced, htraced, file, r, -, chain, hchain, hmatch, -⟩ := mem_chainEvidence.1 he
      exact ⟨chain, List.mem_flatMap.2 ⟨traced, htraced, hchain⟩, hmatch⟩
  · rintro ⟨chain, hchain, hmatch⟩
    obtain ⟨traced, htraced, hchain⟩ := List.mem_flatMap.1 hchain
    obtain ⟨⟨file, r⟩, hplace⟩ := Option.isSome_iff_exists.1 (hfits traced htraced)
    exact .inr ⟨_, mem_chainEvidence.2 ⟨traced, htraced, file, r, hplace, chain, hchain, hmatch,
      rfl⟩, (Evidence.flags_ofChain _ _ _ _).1⟩

/-- **No evidence is lost with a re-export that is passed over.** -/
theorem reached_of_skipped {c : Component} {p : Project} {t : TraceIndex} (hapart : t.TellsApart p)
    (hnamed : Named c p) (hcounted : ¬ Counted c p t) : Reached c t := by
  obtain ⟨file, hfile, r, hr, hnames⟩ := hnamed
  by_cases hskip : r.isReexport = true ∧ ∃ chain ∈ t.chains, chain.origin.same r.location = true
  · obtain ⟨hre, chain, hchain, hsame⟩ := hskip
    refine ⟨chain, hchain, ?_⟩
    rw [hapart file hfile r hr hre chain hchain hsame]
    exact hnames.2
  · exact absurd ⟨file, hfile, r, hr, hnames, hskip⟩ hcounted

/-- The status that evidence leads to. -/
theorem status_conclude (p : Project) (e : Evidence) :
    (conclude p e).1 =
      if e.showsUse then .reachable
      else if e.directImport then .imported
      else if e.chain then .indirect
      else if p.completed then .notReachable
      else .unknown := by
  unfold conclude Evidence.showsUse
  cases e.namedCall
  · cases (e.wholeModuleUse || e.dynamicLoad || e.barrelCall)
    · cases e.directImport
      · cases e.chain
        · cases p.completed
          · rfl
          · cases p.hasDynamicImports <;> rfl
        · rfl
      · rfl
    · rfl
  · rfl

theorem status_conclude_eq_reachable_iff {p : Project} {e : Evidence} :
    (conclude p e).1 = .reachable ↔ e.showsUse = true := by
  rw [status_conclude]
  cases e.showsUse <;> cases e.directImport <;> cases e.chain <;> cases p.completed <;> simp

theorem status_classify {p : Project} (hfiles : p.files ≠ []) (t : TraceIndex) (c : Component) :
    (classify p t c).status = (conclude p (evidence c p t)).1 := by
  rw [classify, if_neg (by simpa using hfiles)]
  rfl

theorem named_of_counted {c : Component} {p : Project} {t : TraceIndex} (h : Counted c p t) :
    Named c p := by
  obtain ⟨file, hfile, r, hr, hnames, -⟩ := h
  exact ⟨file, hfile, r, hr, hnames⟩

/-- What is used is named by an import or reached by a chain. -/
theorem named_or_reached_of_used {c : Component} {p : Project} {t : TraceIndex}
    (h : UsedDirectly c p ∨ UsedThroughChain c p t) : Named c p ∨ Reached c t := by
  rcases h with ⟨file, hfile, r, hr, hnames, -⟩ |
    ⟨traced, htraced, _, _, -, chain, hchain, hmatch, -⟩
  · exact .inl ⟨file, hfile, r, hr, hnames⟩
  · exact .inr ⟨chain, List.mem_flatMap.2 ⟨traced, htraced, hchain⟩, hmatch⟩

theorem calledThroughChain_of_used {c : Component} {p : Project} {t : TraceIndex}
    (h : UsedThroughChain c p t) : CalledThroughChain c p t := by
  obtain ⟨traced, htraced, file, r, hplace, chain, hchain, hmatch, b, hb, hcalled⟩ := h
  exact ⟨traced, htraced, file, r, hplace, chain, hchain, hmatch, b, hb, hcalled.1⟩

theorem reached_of_calledThroughChain {c : Component} {p : Project} {t : TraceIndex}
    (h : CalledThroughChain c p t) : Reached c t := by
  obtain ⟨traced, htraced, _, _, -, chain, hchain, hmatch, -⟩ := h
  exact ⟨chain, List.mem_flatMap.2 ⟨traced, htraced, hchain⟩, hmatch⟩

/-- **The status by what the project shows**, where the chains count by the calls that are
seen through them. -/
theorem status_classify_eq (p : Project) (t : TraceIndex) (c : Component)
    (hfiles : p.files ≠ []) (hfits : t.FitsIn p) (hapart : t.TellsApart p) :
    (UsedDirectly c p ∨ UsedThroughChain c p t → (classify p t c).status = .reachable) ∧
      (¬ (UsedDirectly c p ∨ UsedThroughChain c p t) →
        (Counted c p t → (classify p t c).status = .imported) ∧
        (¬ Counted c p t →
          (Reached c t → (classify p t c).status = .indirect) ∧
          (¬ Reached c t → ¬ Named c p ∧
            (classify p t c).status = if p.completed then .notReachable else .unknown))) := by
  rw [status_classify hfiles, status_conclude]
  refine ⟨fun hused => if_pos (showsUse_evidence_iff.2 hused), fun hunused => ?_⟩
  rw [if_neg (mt showsUse_evidence_iff.1 hunused)]
  refine ⟨fun hcounted => if_pos (directImport_evidence_iff.2 hcounted), fun hcounted => ?_⟩
  rw [if_neg (mt directImport_evidence_iff.1 hcounted)]
  refine ⟨fun hreached => if_pos ((chain_evidence_iff hfits hcounted).2 hreached),
    fun hreached => ⟨fun hnamed => hreached (reached_of_skipped hapart hnamed hcounted), ?_⟩⟩
  rw [if_neg (mt (chain_evidence_iff hfits hcounted).1 hreached)]

/-- What is used is accounted for by reachable. -/
theorem accounts_reachable {c : Component} {p : Project} {t : TraceIndex}
    (h : UsedDirectly c p ∨ UsedThroughChain c p t) : Accounts c p t .reachable := by
  have hused : UsedDirectly c p ∨ CalledThroughChain c p t := h.imp_right calledThroughChain_of_used
  have hfound : ¬ (¬ Named c p ∧ ¬ Reached c t) :=
    fun hnone => (named_or_reached_of_used h).elim hnone.1 hnone.2
  exact ⟨by simp [hfound], fun hnone => absurd hnone hfound, fun _ => by simp [hused],
    fun _ hunused => absurd hused hunused⟩

/-- What is found without a use is accounted for by imported or by indirect. -/
theorem accounts_unused {c : Component} {p : Project} {t : TraceIndex} {status : Status}
    (hfound : Named c p ∨ Reached c t) (hunused : ¬ (UsedDirectly c p ∨ CalledThroughChain c p t))
    (himported : Counted c p t → status = .imported)
    (hindirect : ¬ Counted c p t → status = .indirect) : Accounts c p t status := by
  have hsome : ¬ (¬ Named c p ∧ ¬ Reached c t) := fun hnone => hfound.elim hnone.1 hnone.2
  by_cases hcounted : Counted c p t
  · rw [himported hcounted]
    exact ⟨by simp [hsome], fun hnone => absurd hnone hsome, fun _ => by simp [hunused],
      fun _ _ => by simp [hcounted]⟩
  · rw [hindirect hcounted]
    exact ⟨by simp [hsome], fun hnone => absurd hnone hsome, fun _ => by simp [hunused],
      fun _ _ => by simp [hcounted]⟩

/-- What is not found is accounted for by not reachable or by unknown. -/
theorem accounts_nothing {c : Component} {p : Project} {t : TraceIndex}
    (hnone : ¬ Named c p ∧ ¬ Reached c t) :
    Accounts c p t (if p.completed then .notReachable else .unknown) := by
  have hfound : ¬ (Named c p ∨ Reached c t) := fun h => h.elim hnone.1 hnone.2
  refine ⟨?_, fun _ => ?_, fun h => absurd h hfound, fun h => absurd h hfound⟩
  · cases p.completed <;> simp [hnone]
  · cases p.completed <;> simp

/-- **When the verdict accounts for what the project shows.**  For every project with a file
that was read, and every index of traces of its imports whose chains end where no other
module is re-exported: the status accounts for the component, unless all that uses it are
calls of it as a whole module that a chain forwards.  Then it is imported where an import
counts directly, and indirect otherwise. -/
theorem status_accounts_iff (p : Project) (t : TraceIndex) (c : Component)
    (hfiles : p.files ≠ []) (hfits : t.FitsIn p) (hapart : t.TellsApart p) :
    (Accounts c p t (classify p t c).status ↔ ¬ OnlyCalledWhole c p t) ∧
      (OnlyCalledWhole c p t →
        (Counted c p t → (classify p t c).status = .imported) ∧
        (¬ Counted c p t → (classify p t c).status = .indirect)) := by
  obtain ⟨hreachable, hrest⟩ := status_classify_eq p t c hfiles hfits hapart
  by_cases hused : UsedDirectly c p ∨ UsedThroughChain c p t
  · have haccounts : Accounts c p t (classify p t c).status := by
      rw [hreachable hused]
      exact accounts_reachable hused
    have hseen : ¬ OnlyCalledWhole c p t := fun h => h.2 hused
    exact ⟨iff_of_true haccounts hseen, fun h => absurd h hseen⟩
  obtain ⟨himported, hrest⟩ := hrest hused
  by_cases hcalled : CalledThroughChain c p t
  · -- the call is forwarded and not seen
    have hreached := reached_of_calledThroughChain hcalled
    have hindirect := fun hcounted => (hrest hcounted).1 hreached
    refine ⟨iff_of_false (fun haccounts => ?_) (not_not_intro ⟨hcalled, hused⟩),
      fun _ => ⟨himported, hindirect⟩⟩
    have hstatus := (haccounts.used (.inr hreached)).2 (.inr hcalled)
    by_cases hcounted : Counted c p t
    · exact absurd (hstatus.symm.trans (himported hcounted)) (by decide)
    · exact absurd (hstatus.symm.trans (hindirect hcounted)) (by decide)
  · have hunused : ¬ (UsedDirectly c p ∨ CalledThroughChain c p t) :=
      fun h => h.elim (fun hdirect => hused (.inl hdirect)) hcalled
    have hseen : ¬ OnlyCalledWhole c p t := fun h => hcalled h.1
    refine ⟨iff_of_true ?_ hseen, fun h => absurd h hseen⟩
    by_cases hfound : Counted c p t ∨ Reached c t
    · refine accounts_unused (hfound.imp_left named_of_counted) hunused himported ?_
      exact fun hcounted => (hrest hcounted).1 (hfound.resolve_left hcounted)
    · obtain ⟨hcounted, hreached⟩ := not_or.1 hfound
      obtain ⟨hnamed, hstatus⟩ := (hrest hcounted).2 hreached
      rw [hstatus]
      exact accounts_nothing ⟨hnamed, hreached⟩

/-- The hypotheses are satisfiable where a re-export is passed over: `a.ts` calls `x` of
`b.ts`, which forwards it from `q`.  The only import of `q` is the re-export at which the
chain ends, and `q` is reachable. -/
theorem status_accounts_iff_barrel :
    let use : ImportRecord := ⟨"./b", .named, [⟨"x", "x"⟩], false, ⟨⟨"a.ts"⟩, 1, 1, ""⟩⟩
    let forward : ImportRecord := ⟨"q", .reexport, [⟨"x", "x"⟩], false, ⟨⟨"b.ts"⟩, 1, 1, ""⟩⟩
    let chain : ReexportChain :=
      ⟨"q", [⟨"b.ts"⟩], ["x"], [⟨"x", "x"⟩], 1, false, forward.location⟩
    let a : ParsedFile := ⟨⟨"/a.ts"⟩, ⟨"a.ts"⟩, [use], { calledNames := NameSet.ofList ["x"] }⟩
    let b : ParsedFile := ⟨⟨"/b.ts"⟩, ⟨"b.ts"⟩, [forward], {}⟩
    let p : Project := ⟨⟨"/"⟩, [a, b], [], 2, true⟩
    let t : TraceIndex := { traced := [⟨0, 0, { chains := [chain] }⟩] }
    p.files ≠ [] ∧ t.FitsIn p ∧ t.TellsApart p ∧ ¬ Counted { name := "q" } p t ∧
      Accounts { name := "q" } p t (classify p t { name := "q" }).status := by
  intro use forward chain a b p t
  have hfiles : p.files ≠ [] := by simp [p]
  have hfits : t.FitsIn p := by unfold TraceIndex.FitsIn; decide
  have hapart : t.TellsApart p := by unfold TraceIndex.TellsApart; decide
  have hcounted : ¬ Counted { name := "q" } p t := by
    unfold Counted Names
    decide
  have hused : UsedThroughChain { name := "q" } p t :=
    ⟨⟨0, 0, { chains := [chain] }⟩, by simp [t], a, use, rfl, chain, by simp, by decide,
      ⟨"x", "x"⟩, by simp [use], .inr ⟨by decide, by decide, by decide⟩,
      fun h => absurd h.2.1 (by decide)⟩
  have hseen : ¬ OnlyCalledWhole { name := "q" } p t := fun h => h.2 (.inr hused)
  exact ⟨hfiles, hfits, hapart, hcounted,
    (status_accounts_iff p t { name := "q" } hfiles hfits hapart).1.2 hseen⟩

/-- **A call of a forwarded module is overlooked.**  In `a.ts` stands
`import { ns } from './b'; ns();` and in `b.ts` `export * as ns from 'q'`.  The chain
forwards what is called, and `q` is indirect, not reachable. -/
theorem indirect_of_module_called :
    let use : ImportRecord := ⟨"./b", .named, [⟨"ns", "ns"⟩], false, ⟨⟨"a.ts"⟩, 1, 1, ""⟩⟩
    let forward : ImportRecord :=
      ⟨"q", .reexportAll, [BoundName.whole "ns"], false, ⟨⟨"b.ts"⟩, 1, 1, ""⟩⟩
    let chain : ReexportChain :=
      ⟨"q", [⟨"b.ts"⟩], [], [BoundName.whole "ns"], 1, false, forward.location⟩
    let a : ParsedFile := ⟨⟨"/a.ts"⟩, ⟨"a.ts"⟩, [use], { calledNames := NameSet.ofList ["ns"] }⟩
    let b : ParsedFile := ⟨⟨"/b.ts"⟩, ⟨"b.ts"⟩, [forward], {}⟩
    let p : Project := ⟨⟨"/"⟩, [a, b], [], 2, true⟩
    let t : TraceIndex := { traced := [⟨0, 0, { chains := [chain] }⟩] }
    CalledThroughChain { name := "q" } p t ∧ (classify p t { name := "q" }).status = .indirect ∧
      ¬ Accounts { name := "q" } p t (classify p t { name := "q" }).status := by
  intro use forward chain a b p t
  have hcalled : CalledThroughChain { name := "q" } p t :=
    ⟨⟨0, 0, { chains := [chain] }⟩, by simp [t], a, use, rfl, chain, by simp, by decide,
      ⟨"ns", "ns"⟩, by simp [use], .inr ⟨by decide, by decide, by decide⟩⟩
  have hstatus : (classify p t { name := "q" }).status = .indirect := by decide
  refine ⟨hcalled, hstatus, fun haccounts => ?_⟩
  have hreachable := (haccounts.used (.inr (reached_of_calledThroughChain hcalled))).2
    (.inr hcalled)
  exact absurd (hstatus.symm.trans hreachable) (by decide)

end Verdict
end DependencyUse
