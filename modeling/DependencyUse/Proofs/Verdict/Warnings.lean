/-
# Every warning has a cause, and every cause a warning

The warnings of a verdict come from seven places and are thinned out by code and location.  Here
they are said without lists, by what causes them (`Cause`):

| cause | code | location |
| --- | --- | --- |
| a chain that ends at the component | barrel file | of the import that it starts from |
| code made at run time in a file that gives the verdict a place | dynamic import or code | its own |
| an import of the component that binds nothing | dynamic or side-effect import | its own |
| a warning of the traces, unless the component is reachable | its own | its own |
| not every file was looked at, and the verdict is not open | partial analysis | none |
| a file was passed over | skipped files | none |
| the module is used as a whole, and no name of it is called | namespace import | of the import |
| the first chain through an `export *`, if the verdict relies on chains | star import | its end |
| a computed module name, if the component is not reachable | dynamic import | of the first one |

Thinning out keeps one warning of each code and location, so no cause is lost by it, and nothing
else puts a warning into a verdict.
-/

import DependencyUse.Proofs.Distinct
import DependencyUse.Proofs.Reexport.Thinning
import DependencyUse.Proofs.Verdict.Consistency

namespace DependencyUse

/-- What a warning is about: its code and its location. -/
def Warning.about (w : Warning) : WarningCode × Option Location :=
  (w.code, w.location)

namespace Verdict

/-- A record that counts as a direct import: it names the component, and it is no re-export at
which a chain ends. -/
def Counts (c : Component) (t : TraceIndex) (r : ImportRecord) : Prop :=
  Names c r ∧ ¬ (r.isReexport = true ∧ ∃ chain ∈ t.chains, chain.origin.same r.location = true)

/-- A name that an import takes from the component is called. -/
def CalledByName (c : Component) (p : Project) : Prop :=
  ∃ file ∈ p.files, ∃ r ∈ file.imports, Names c r ∧ r.isReexport = false ∧
    ∃ b ∈ r.names, b.isWholeModule = false ∧ file.callGraph.isInvoked b.localName = true

/-- The chains of a project that end at the component, in order. -/
def chainsTo (c : Component) (p : Project) (t : TraceIndex) : List ReexportChain :=
  t.traced.flatMap fun traced =>
    if (traced.place? p).isSome then traced.outcome.chainsTo c else []

/-- The file gives the verdict a place: an import of it counts directly, or a chain that ends at
the component starts from one. -/
def GivesPlace (c : Component) (p : Project) (t : TraceIndex) (file : ParsedFile) : Prop :=
  (∃ r ∈ file.imports, Counts c t r) ∨
    ∃ traced ∈ t.traced, ∃ r, traced.place? p = some (file, r) ∧ traced.outcome.chainsTo c ≠ []

/-- The causes of warnings, each with the code and the location of its warning. -/
inductive Cause (c : Component) (p : Project) (t : TraceIndex) :
    WarningCode → Option Location → Prop where
  | barrel {traced : TracedImport} {file : ParsedFile} {r : ImportRecord} {chain : ReexportChain}
      (htraced : traced ∈ t.traced) (hplace : traced.place? p = some (file, r))
      (hchain : chain ∈ traced.outcome.chains) (hends : c.matchesModule chain.specifier = true) :
      Cause c p t .barrelFile (some r.location)
  | dynamic {file : ParsedFile} {d : DynamicCode} (hfile : file ∈ p.files)
      (hgives : GivesPlace c p t file) (hd : d ∈ file.callGraph.dynamicCode) :
      Cause c p t (if d.kind.hidesImports then .dynamicImport else .dynamicCode) (some d.location)
  | unbound {file : ParsedFile} {r : ImportRecord} (hfile : file ∈ p.files)
      (hr : r ∈ file.imports) (hnames : Names c r) (hreexport : r.isReexport = false)
      (hnone : r.names = []) :
      Cause c p t (if r.kind = .dynamic then .dynamicImport else .sideEffectImport)
        (some r.location)
  | trace {w : Warning} (hw : w ∈ t.warnings) (hstatus : (classify p t c).status ≠ .reachable) :
      Cause c p t w.code w.location
  | incomplete (hcompleted : p.completed = false) (hstatus : (classify p t c).status ≠ .unknown) :
      Cause c p t .partialAnalysis none
  | skipped (hskipped : p.skipped ≠ []) : Cause c p t .skippedFiles none
  | wholeModule {file : ParsedFile} {r : ImportRecord} {b : BoundName} (hfile : file ∈ p.files)
      (hr : r ∈ file.imports) (hnames : Names c r) (hreexport : r.isReexport = false)
      (hb : b ∈ r.names) (hwhole : b.isWholeModule = true) (hused : b.UsedIn file.callGraph)
      (hcalled : ¬ CalledByName c p) : Cause c p t .namespaceImport (some r.location)
  | star {chain : ReexportChain} (hfirst : (chainsTo c p t).find? (·.throughStar) = some chain)
      (hrelied : ¬ Counted c p t ∨ UsedThroughChain c p t ∧ ¬ CalledByName c p) :
      Cause c p t .starImport (some chain.origin)
  | computed {l : Location} (hl : p.firstComputedImport? = some l)
      (hstatus : (classify p t c).status = .notReachable) : Cause c p t .dynamicImport (some l)

end Verdict

namespace Evidence

/-- What holds of the pieces and is kept by adding holds of the sum. -/
theorem sum_induction {P : Evidence → Prop} (hempty : P {})
    (happend : ∀ a b, P a → P b → P (a ++ b)) {pieces : List Evidence} (h : ∀ e ∈ pieces, P e) :
    P (sum pieces) := by
  induction pieces with
  | nil => exact hempty
  | cons e es ih =>
    refine happend e (sum es) (h e (List.mem_cons_self ..)) (ih fun e' he' => ?_)
    exact h e' (List.mem_cons_of_mem _ he')

/-- Evidence that says nothing of where it comes from. -/
structure IsPlaceless (e : Evidence) : Prop where
  warnings : e.warnings = []
  touched : e.touched = []
  starChain : e.starChain = none

/-- Evidence that does not come from an import of the component. -/
structure IsOfChain (e : Evidence) : Prop where
  namedCall : e.namedCall = false
  wholeModuleUse : e.wholeModuleUse = false
  dynamicLoad : e.dynamicLoad = false
  wholeModuleWarnings : e.wholeModuleWarnings = []

namespace IsPlaceless

theorem append {a b : Evidence} (ha : a.IsPlaceless) (hb : b.IsPlaceless) :
    (a ++ b).IsPlaceless where
  warnings := by show a.warnings ++ b.warnings = []; rw [ha.warnings, hb.warnings]; rfl
  touched := by show a.touched ++ b.touched = []; rw [ha.touched, hb.touched]; rfl
  starChain := by show (a.starChain <|> b.starChain) = none; rw [ha.starChain, hb.starChain]; rfl

theorem sum_map {α : Type} {xs : List α} {piece : α → Evidence}
    (h : ∀ x ∈ xs, (piece x).IsPlaceless) : (sum (xs.map piece)).IsPlaceless :=
  sum_induction ⟨rfl, rfl, rfl⟩ (fun _ _ => append) (List.forall_mem_map.2 h)

end IsPlaceless

theorem isPlaceless_ofBinding (c : Component) (g : CallGraph) (r : ImportRecord) (b : BoundName) :
    (ofBinding c g r b).IsPlaceless := by
  unfold ofBinding ofWholeModule ofNamed
  dsimp only
  repeat' split
  all_goals exact ⟨rfl, rfl, rfl⟩

theorem isPlaceless_ofChainBinding (chain : ReexportChain) (g : CallGraph) (b : BoundName) :
    (ofChainBinding chain g b).IsPlaceless := by
  unfold ofChainBinding
  repeat' split
  all_goals exact ⟨rfl, rfl, rfl⟩

/-- **What an import says of where it comes from.** -/
theorem touched_ofDirect (c : Component) (g : CallGraph) (i : Nat) (r : ImportRecord) :
    (ofDirect c g i r).touched = [i] ∧ (ofDirect c g i r).starChain = none := by
  have hbound := IsPlaceless.sum_map fun b (_ : b ∈ r.names) => isPlaceless_ofBinding c g r b
  unfold ofDirect ofUnbound
  split
  · exact ⟨rfl, rfl⟩
  · split
    · split <;> exact ⟨rfl, rfl⟩
    · exact ⟨congrArg ([i] ++ ·) hbound.touched, hbound.starChain⟩

/-- **An import that binds nothing has a warning**, and no other import. -/
theorem abouts_ofDirect (c : Component) (g : CallGraph) (i : Nat) (r : ImportRecord) :
    (ofDirect c g i r).warnings.map Warning.about =
      if r.isReexport = false ∧ r.names = [] then
        [(if r.kind = .dynamic then .dynamicImport else .sideEffectImport, some r.location)]
      else [] := by
  have hbound := IsPlaceless.sum_map fun b (_ : b ∈ r.names) => isPlaceless_ofBinding c g r b
  rw [ofDirect]
  cases hreexport : r.isReexport with
  | true => rfl
  | false =>
    cases hnames : r.names with
    | nil =>
      show (ofUnbound r).warnings.map Warning.about = _
      unfold ofUnbound
      split <;> simp [Warning.about, Warning.at_, *]
    | cons b bs =>
      rw [hnames] at hbound
      show ((sum ((b :: bs).map (ofBinding c g r))).warnings).map Warning.about = _
      rw [hbound.warnings]
      simp

theorem isFlag_namedCall : IsFlag namedCall := ⟨rfl, fun _ _ => rfl⟩

theorem isFlag_barrelCall : IsFlag barrelCall := ⟨rfl, fun _ _ => rfl⟩

/-- Whether a list of evidence holds something is a flag. -/
theorem isFlag_contains {α : Type} [DecidableEq α] (list : Evidence → List α)
    (hempty : list {} = []) (happend : ∀ a b, list (a ++ b) = list a ++ list b) (x : α) :
    IsFlag fun e => (list e).contains x where
  empty := by rw [hempty]; rfl
  append a b := by rw [happend, List.contains_append]

/-- A flag that only bindings set is set by a binding of an import that is no re-export. -/
theorem IsFlag.ofDirect_iff {f : Evidence → Bool} (hf : IsFlag f) {c : Component} {g : CallGraph}
    {i : Nat} {r : ImportRecord} (hseen : f ({ directImport := true } ++ saw i r) = false)
    (hunbound : f (ofUnbound r) = false) :
    f (ofDirect c g i r) = true ↔
      r.isReexport = false ∧ ∃ b ∈ r.names, f (ofBinding c g r b) = true := by
  rw [ofDirect]
  cases hreexport : r.isReexport with
  | true => simp [hseen]
  | false =>
    cases hnames : r.names with
    | nil =>
      show f (_ ++ ofUnbound r) = true ↔ _
      rw [hf.append, hseen, hunbound]
      simp
    | cons b bs =>
      show f (_ ++ sum ((b :: bs).map (ofBinding c g r))) = true ↔ _
      rw [hf.append, hseen, Bool.false_or, hf.sum_map_iff]
      simp

theorem namedCall_ofBinding_iff {c : Component} {g : CallGraph} {r : ImportRecord}
    {b : BoundName} :
    (ofBinding c g r b).namedCall = true ↔
      b.isWholeModule = false ∧ g.isInvoked b.localName = true := by
  rw [ofBinding]
  cases b.isWholeModule with
  | true =>
    rw [if_pos rfl, ofWholeModule]
    repeat' split
    all_goals simp
  | false =>
    rw [if_neg Bool.false_ne_true, ofNamed]
    cases g.isInvoked b.localName with
    | true => simp
    | false => cases g.isReferenced b.localName <;> simp

theorem wholeModuleUse_ofBinding_iff {c : Component} {g : CallGraph} {r : ImportRecord}
    {b : BoundName} :
    (ofBinding c g r b).wholeModuleUse = true ↔ b.isWholeModule = true ∧ b.UsedIn g := by
  rw [← showsUse_ofBinding_iff (c := c) (r := r), ofBinding]
  cases b.isWholeModule with
  | true =>
    rw [if_pos rfl, ofWholeModule]
    repeat' split
    all_goals simp [showsUse]
  | false =>
    rw [if_neg Bool.false_ne_true, ofNamed]
    repeat' split
    all_goals simp

/-- **A whole module that is used has a warning**, and nothing else has one of this kind. -/
theorem wholeModuleWarnings_ofBinding (c : Component) (g : CallGraph) (r : ImportRecord)
    (b : BoundName) :
    (ofBinding c g r b).wholeModuleWarnings =
      if (ofBinding c g r b).wholeModuleUse then [wholeModuleWarning r b] else [] := by
  rw [ofBinding]
  cases b.isWholeModule with
  | true =>
    rw [if_pos rfl, ofWholeModule]
    by_cases hcalled : (g.isCalled b.localName || !(g.calledMembers b.localName).isEmpty) = true
    · rw [if_pos hcalled]
      rfl
    · rw [if_neg hcalled]
      cases g.isReferenced b.localName <;> rfl
  | false =>
    rw [if_neg Bool.false_ne_true, ofNamed]
    cases g.isInvoked b.localName with
    | true => rfl
    | false => cases g.isReferenced b.localName <;> rfl

theorem namedCall_ofDirect_iff {c : Component} {g : CallGraph} {i : Nat} {r : ImportRecord} :
    (ofDirect c g i r).namedCall = true ↔ r.isReexport = false ∧
      ∃ b ∈ r.names, b.isWholeModule = false ∧ g.isInvoked b.localName = true := by
  have hunbound : (ofUnbound r).namedCall = false := by unfold ofUnbound; split <;> rfl
  rw [isFlag_namedCall.ofDirect_iff rfl hunbound]
  simp only [namedCall_ofBinding_iff]

theorem barrelCall_ofDirect (c : Component) (g : CallGraph) (i : Nat) (r : ImportRecord) :
    (ofDirect c g i r).barrelCall = false := by
  have hunbound : (ofUnbound r).barrelCall = false := by unfold ofUnbound; split <;> rfl
  have hbinding : ∀ b, (ofBinding c g r b).barrelCall = false := by
    intro b
    unfold ofBinding ofWholeModule ofNamed
    dsimp only
    repeat' split
    all_goals rfl
  rw [Bool.eq_false_iff, ne_eq, isFlag_barrelCall.ofDirect_iff rfl hunbound]
  simp [hbinding]

/-- **A whole module that is used has a warning at the import**, and no other import has one of
this kind. -/
theorem mem_wholeModuleWarnings_ofDirect {c : Component} {g : CallGraph} {i : Nat}
    {r : ImportRecord} {w : Warning} :
    w ∈ (ofDirect c g i r).wholeModuleWarnings ↔ r.isReexport = false ∧
      ∃ b ∈ r.names, (b.isWholeModule = true ∧ b.UsedIn g) ∧ w = wholeModuleWarning r b := by
  have hflag := isFlag_contains wholeModuleWarnings rfl (fun _ _ => rfl) w
  have hunbound : (ofUnbound r).wholeModuleWarnings = [] := by unfold ofUnbound; split <;> rfl
  have hdirect := hflag.ofDirect_iff (c := c) (g := g) (i := i) (r := r) rfl (by simp [hunbound])
  simp only [List.contains_iff_mem, wholeModuleWarnings_ofBinding] at hdirect
  rw [hdirect]
  refine and_congr_right fun _ => exists_congr fun b => and_congr_right fun _ => ?_
  rw [← wholeModuleUse_ofBinding_iff (c := c) (r := r)]
  cases (ofBinding c g r b).wholeModuleUse <;> simp

/-- **What a chain says of where it comes from**: a warning at the import that it starts from,
and where it ends if it passes an `export *`. -/
theorem placed_ofChain (g : CallGraph) (i : Nat) (r : ImportRecord) (chain : ReexportChain) :
    (ofChain g i r chain).warnings.map Warning.about = [(.barrelFile, some r.location)] ∧
      (ofChain g i r chain).touched = [i] ∧
      (ofChain g i r chain).starChain = if chain.throughStar then some chain.origin else none := by
  have hbound := IsPlaceless.sum_map fun b (_ : b ∈ r.names) => isPlaceless_ofChainBinding chain g b
  refine ⟨?_, congrArg ([i] ++ ·) hbound.touched, ?_⟩
  · show List.map Warning.about (_ :: (sum (r.names.map (ofChainBinding chain g))).warnings) = _
    rw [hbound.warnings]
    rfl
  · show ((if chain.throughStar then some chain.origin else none)
      <|> (sum (r.names.map (ofChainBinding chain g))).starChain) = _
    rw [hbound.starChain]
    cases chain.throughStar <;> rfl

theorem IsOfChain.append {a b : Evidence} (ha : a.IsOfChain) (hb : b.IsOfChain) :
    (a ++ b).IsOfChain where
  namedCall := by show (a.namedCall || b.namedCall) = false; rw [ha.namedCall, hb.namedCall]; rfl
  wholeModuleUse := by
    show (a.wholeModuleUse || b.wholeModuleUse) = false
    rw [ha.wholeModuleUse, hb.wholeModuleUse]
    rfl
  dynamicLoad := by
    show (a.dynamicLoad || b.dynamicLoad) = false
    rw [ha.dynamicLoad, hb.dynamicLoad]
    rfl
  wholeModuleWarnings := by
    show a.wholeModuleWarnings ++ b.wholeModuleWarnings = []
    rw [ha.wholeModuleWarnings, hb.wholeModuleWarnings]
    rfl

theorem isOfChain_ofChain (g : CallGraph) (i : Nat) (r : ImportRecord) (chain : ReexportChain) :
    (ofChain g i r chain).IsOfChain := by
  have hbinding : ∀ e ∈ r.names.map (ofChainBinding chain g), e.IsOfChain := by
    refine List.forall_mem_map.2 fun b _ => ?_
    unfold ofChainBinding
    repeat' split
    all_goals exact ⟨rfl, rfl, rfl, rfl⟩
  have hsum := sum_induction ⟨rfl, rfl, rfl, rfl⟩ (fun _ _ => IsOfChain.append) hbinding
  exact IsOfChain.append ⟨rfl, rfl, rfl, rfl⟩ hsum

theorem barrelCall_ofChain_iff {g : CallGraph} {i : Nat} {r : ImportRecord}
    {chain : ReexportChain} :
    (ofChain g i r chain).barrelCall = true ↔ ∃ b ∈ r.names, chain.CalledThrough g b := by
  have hchain := isOfChain_ofChain g i r chain
  rw [← showsUse_ofChain_iff (i := i), showsUse, hchain.namedCall, hchain.wholeModuleUse,
    hchain.dynamicLoad]
  rfl

end Evidence

namespace Verdict

variable {c : Component} {p : Project} {t : TraceIndex}

/-- What a list of all evidence holds is in the list of an import that counts or of a chain. -/
theorem mem_list_evidence {α : Type} [DecidableEq α] (list : Evidence → List α)
    (hempty : list {} = []) (happend : ∀ a b, list (a ++ b) = list a ++ list b) {x : α} :
    x ∈ list (evidence c p t) ↔
      (∃ i file, p.files[i]? = some file ∧ ∃ r ∈ file.imports, Counts c t r ∧
        x ∈ list (Evidence.ofDirect c file.callGraph i r)) ∨
      ∃ traced ∈ t.traced, ∃ file r, traced.place? p = some (file, r) ∧
        ∃ chain ∈ traced.outcome.chainsTo c,
          x ∈ list (Evidence.ofChain file.callGraph traced.fileIndex r chain) := by
  have hflag := flag_evidence_iff (c := c) (p := p) (t := t)
    (Evidence.isFlag_contains list hempty happend x)
  simp only [List.contains_iff_mem] at hflag
  rw [hflag]
  refine or_congr ?_ ?_
  · constructor
    · rintro ⟨e, he, hx⟩
      obtain ⟨i, file, hfile, r, hr, hdirect, rfl⟩ := mem_directEvidence.1 he
      exact ⟨i, file, hfile, r, hr, isDirect_iff.1 hdirect, hx⟩
    · rintro ⟨i, file, hfile, r, hr, hcounts, hx⟩
      exact ⟨_, mem_directEvidence.2 ⟨i, file, hfile, r, hr, isDirect_iff.2 hcounts, rfl⟩, hx⟩
  · constructor
    · rintro ⟨e, he, hx⟩
      obtain ⟨traced, htraced, file, r, hplace, chain, hchain, hends, rfl⟩ :=
        mem_chainEvidence.1 he
      exact ⟨traced, htraced, file, r, hplace, chain, List.mem_filter.2 ⟨hchain, hends⟩, hx⟩
    · rintro ⟨traced, htraced, file, r, hplace, chain, hchain, hx⟩
      obtain ⟨hchain, hends⟩ := List.mem_filter.1 hchain
      exact ⟨_, mem_chainEvidence.2 ⟨traced, htraced, file, r, hplace, chain, hchain, hends, rfl⟩,
        hx⟩

/-- A record that is no re-export counts if it names the component. -/
theorem counts_iff_names {r : ImportRecord} (hreexport : r.isReexport = false) :
    Counts c t r ↔ Names c r :=
  and_iff_left fun h => by rw [hreexport] at h; cases h.1

/-- The imports that count and are no re-exports are those that name the component, wherever their
file stands. -/
theorem exists_counts_iff {Q : ParsedFile → ImportRecord → Prop} :
    (∃ (i : Nat) (file : ParsedFile), p.files[i]? = some file ∧ ∃ r ∈ file.imports,
      Counts c t r ∧ r.isReexport = false ∧ Q file r) ↔
    ∃ file ∈ p.files, ∃ r ∈ file.imports, Names c r ∧ r.isReexport = false ∧ Q file r := by
  constructor
  · rintro ⟨i, file, hfile, r, hr, hcounts, hreexport, hq⟩
    exact ⟨file, List.mem_of_getElem? hfile, r, hr, hcounts.1, hreexport, hq⟩
  · rintro ⟨file, hfile, r, hr, hnames, hreexport, hq⟩
    obtain ⟨i, hi⟩ := List.getElem?_of_mem hfile
    exact ⟨i, file, hi, r, hr, (counts_iff_names hreexport).2 hnames, hreexport, hq⟩

/-- **The warnings of the evidence** are those of imports that bind nothing and of chains. -/
theorem mem_abouts_evidence {about : WarningCode × Option Location} :
    about ∈ (evidence c p t).warnings.map Warning.about ↔
      (∃ file ∈ p.files, ∃ r ∈ file.imports, Names c r ∧ r.isReexport = false ∧ r.names = [] ∧
        about = (if r.kind = .dynamic then .dynamicImport else .sideEffectImport,
          some r.location)) ∨
      ∃ traced ∈ t.traced, ∃ file r, traced.place? p = some (file, r) ∧
        ∃ chain ∈ traced.outcome.chainsTo c, about = (.barrelFile, some r.location) := by
  rw [mem_list_evidence (fun e => e.warnings.map Warning.about) rfl fun _ _ => List.map_append]
  simp only [Evidence.abouts_ofDirect, (Evidence.placed_ofChain _ _ _ _).1, List.mem_singleton]
  refine or_congr_left ?_
  constructor
  · rintro ⟨i, file, hfile, r, hr, hcounts, habout⟩
    split at habout
    · rename_i hunbound
      exact ⟨file, List.mem_of_getElem? hfile, r, hr, hcounts.1, hunbound.1, hunbound.2,
        List.mem_singleton.1 habout⟩
    · cases habout
  · rintro ⟨file, hfile, r, hr, hnames, hreexport, hnone, rfl⟩
    obtain ⟨i, hi⟩ := List.getElem?_of_mem hfile
    refine ⟨i, file, hi, r, hr, (counts_iff_names hreexport).2 hnames, ?_⟩
    rw [if_pos ⟨hreexport, hnone⟩]
    exact List.mem_singleton.2 rfl

/-- **The files that the evidence comes from** are those that give the verdict a place. -/
theorem mem_touched_evidence {i : Nat} :
    i ∈ (evidence c p t).touched ↔
      (∃ file, p.files[i]? = some file ∧ ∃ r ∈ file.imports, Counts c t r) ∨
      ∃ traced ∈ t.traced, traced.fileIndex = i ∧
        ∃ file r, traced.place? p = some (file, r) ∧ traced.outcome.chainsTo c ≠ [] := by
  rw [mem_list_evidence Evidence.touched rfl fun _ _ => rfl]
  simp only [(Evidence.touched_ofDirect _ _ _ _).1, (Evidence.placed_ofChain _ _ _ _).2.1,
    List.mem_singleton]
  refine or_congr ?_ ?_
  · constructor
    · rintro ⟨_, file, hfile, r, hr, hcounts, rfl⟩
      exact ⟨file, hfile, r, hr, hcounts⟩
    · rintro ⟨file, hfile, r, hr, hcounts⟩
      exact ⟨i, file, hfile, r, hr, hcounts, rfl⟩
  · constructor
    · rintro ⟨traced, htraced, file, r, hplace, chain, hchain, rfl⟩
      exact ⟨traced, htraced, rfl, file, r, hplace, List.ne_nil_of_mem hchain⟩
    · rintro ⟨traced, htraced, rfl, file, r, hplace, hne⟩
      obtain ⟨chain, hchain⟩ := List.exists_mem_of_ne_nil _ hne
      exact ⟨traced, htraced, file, r, hplace, chain, hchain, rfl⟩

/-- A flag that chains do not set is set by an import that counts. -/
theorem flag_evidence_iff_direct {f : Evidence → Bool} (hf : Evidence.IsFlag f)
    (hchain : ∀ e, e.IsOfChain → f e = false) :
    f (evidence c p t) = true ↔ ∃ i file, p.files[i]? = some file ∧ ∃ r ∈ file.imports,
      Counts c t r ∧ f (Evidence.ofDirect c file.callGraph i r) = true := by
  rw [flag_evidence_iff hf]
  constructor
  · rintro (⟨e, he, hset⟩ | ⟨e, he, hset⟩)
    · obtain ⟨i, file, hfile, r, hr, hdirect, rfl⟩ := mem_directEvidence.1 he
      exact ⟨i, file, hfile, r, hr, isDirect_iff.1 hdirect, hset⟩
    · obtain ⟨traced, -, file, r, -, chain, -, -, rfl⟩ := mem_chainEvidence.1 he
      rw [hchain _ (Evidence.isOfChain_ofChain _ _ _ _)] at hset
      cases hset
  · rintro ⟨i, file, hfile, r, hr, hcounts, hset⟩
    exact .inl ⟨_, mem_directEvidence.2 ⟨i, file, hfile, r, hr, isDirect_iff.2 hcounts, rfl⟩, hset⟩

/-- **The evidence holds a call of a name** exactly when a name is called. -/
theorem namedCall_evidence_iff : (evidence c p t).namedCall = true ↔ CalledByName c p := by
  rw [flag_evidence_iff_direct Evidence.isFlag_namedCall fun _ h => h.namedCall]
  simp only [Evidence.namedCall_ofDirect_iff]
  exact exists_counts_iff

/-- **The evidence holds a call through a chain** exactly when there is one. -/
theorem barrelCall_evidence_iff :
    (evidence c p t).barrelCall = true ↔ UsedThroughChain c p t := by
  rw [flag_evidence_iff Evidence.isFlag_barrelCall]
  constructor
  · rintro (⟨e, he, hset⟩ | ⟨e, he, hset⟩)
    · obtain ⟨i, file, -, r, -, -, rfl⟩ := mem_directEvidence.1 he
      rw [Evidence.barrelCall_ofDirect] at hset
      cases hset
    · obtain ⟨traced, htraced, file, r, hplace, chain, hchain, hends, rfl⟩ :=
        mem_chainEvidence.1 he
      exact ⟨traced, htraced, file, r, hplace, chain, hchain, hends,
        Evidence.barrelCall_ofChain_iff.1 hset⟩
  · rintro ⟨traced, htraced, file, r, hplace, chain, hchain, hends, hcalled⟩
    exact .inr ⟨_, mem_chainEvidence.2 ⟨traced, htraced, file, r, hplace, chain, hchain, hends,
      rfl⟩, Evidence.barrelCall_ofChain_iff.2 hcalled⟩

/-- **The evidence relies on chains** exactly when no import counts: what an import shows is shown
by one that counts. -/
theorem relied_evidence_iff :
    (!(evidence c p t).namedCall && !(evidence c p t).wholeModuleUse &&
      !(evidence c p t).dynamicLoad && !(evidence c p t).directImport) = true ↔
        ¬ Counted c p t := by
  have hcounted : ∀ {f : Evidence → Bool}, Evidence.IsFlag f →
      (∀ e, e.IsOfChain → f e = false) → ¬ Counted c p t → f (evidence c p t) = false := by
    intro f hf hchain hnone
    refine Bool.eq_false_iff.2 fun hset => hnone ?_
    obtain ⟨i, file, hfile, r, hr, hcounts, -⟩ := (flag_evidence_iff_direct hf hchain).1 hset
    exact ⟨file, List.mem_of_getElem? hfile, r, hr, hcounts⟩
  constructor
  · intro h hcount
    rw [directImport_evidence_iff.2 hcount] at h
    simp at h
  · intro hnone
    have hdirect : (evidence c p t).directImport = false :=
      Bool.eq_false_iff.2 (mt directImport_evidence_iff.1 hnone)
    rw [hcounted Evidence.isFlag_namedCall (fun _ h => h.namedCall) hnone,
      hcounted (f := Evidence.wholeModuleUse) ⟨rfl, fun _ _ => rfl⟩ (fun _ h => h.wholeModuleUse)
        hnone,
      hcounted (f := Evidence.dynamicLoad) ⟨rfl, fun _ _ => rfl⟩ (fun _ h => h.dynamicLoad) hnone,
      hdirect]
    rfl

/-- **The evidence warns of a whole module** where one is used. -/
theorem mem_wholeModuleWarnings_evidence {w : Warning} :
    w ∈ (evidence c p t).wholeModuleWarnings ↔ ∃ file ∈ p.files, ∃ r ∈ file.imports, Names c r ∧
      r.isReexport = false ∧ ∃ b ∈ r.names, (b.isWholeModule = true ∧ b.UsedIn file.callGraph) ∧
        w = Evidence.wholeModuleWarning r b := by
  have hflag := Evidence.isFlag_contains Evidence.wholeModuleWarnings rfl (fun _ _ => rfl) w
  have hdirect := flag_evidence_iff_direct (c := c) (p := p) (t := t) hflag fun e he => by
    rw [he.wholeModuleWarnings]; rfl
  simp only [List.contains_iff_mem, Evidence.mem_wholeModuleWarnings_ofDirect] at hdirect
  rw [hdirect]
  exact exists_counts_iff

/-- Where the evidence warns of a whole module, one is used. -/
theorem wholeModuleUse_of_warned {w : Warning} (hw : w ∈ (evidence c p t).wholeModuleWarnings) :
    (evidence c p t).wholeModuleUse = true := by
  obtain ⟨file, hfile, r, hr, hnames, hreexport, b, hb, hused, -⟩ :=
    mem_wholeModuleWarnings_evidence.1 hw
  have hunbound : ∀ r, (Evidence.ofUnbound r).wholeModuleUse = false := by
    intro r
    unfold Evidence.ofUnbound
    split <;> rfl
  have hflag : Evidence.IsFlag Evidence.wholeModuleUse := ⟨rfl, fun _ _ => rfl⟩
  rw [flag_evidence_iff_direct hflag fun _ h => h.wholeModuleUse]
  simp only [hflag.ofDirect_iff rfl (hunbound _), Evidence.wholeModuleUse_ofBinding_iff]
  exact exists_counts_iff.2 ⟨file, hfile, r, hr, hnames, hreexport, b, hb, hused⟩

/-- Where a chain of the evidence ends that passes an `export *`: the first one. -/
theorem starChain_sum (pieces : List Evidence) :
    (Evidence.sum pieces).starChain = pieces.findSome? Evidence.starChain := by
  induction pieces with
  | nil => rfl
  | cons e es ih =>
    rw [List.findSome?_cons, ← ih]
    show (e.starChain <|> (Evidence.sum es).starChain) = _
    cases e.starChain <;> rfl

/-- The ends of the chains of the evidence, in the order of the chains. -/
theorem map_starChain_chainEvidence :
    (chainEvidence c p t).map Evidence.starChain
      = (chainsTo c p t).map fun chain =>
          if chain.throughStar then some chain.origin else none := by
  rw [chainEvidence, chainsTo, List.map_flatMap, List.map_flatMap]
  refine List.flatMap_congr fun traced _ => ?_
  rw [tracedEvidence, TracedImport.place?]
  cases p.files[traced.fileIndex]? with
  | none => rfl
  | some file =>
    cases hr : file.imports[traced.recordIndex]? with
    | none => simp [hr]
    | some r =>
      simp only [Option.bind_some, hr, Option.map_some, Option.isSome_some, if_true, List.map_map]
      exact List.map_congr_left fun chain _ => (Evidence.placed_ofChain _ _ _ _).2.2

/-- **The evidence knows the end of the first chain that passes an `export *`.** -/
theorem starChain_evidence :
    (evidence c p t).starChain
      = ((chainsTo c p t).find? (·.throughStar)).map ReexportChain.origin := by
  have hdirect : (directEvidence c p t).findSome? Evidence.starChain = none := by
    refine List.findSome?_eq_none_iff.2 fun e he => ?_
    obtain ⟨i, file, -, r, -, -, rfl⟩ := mem_directEvidence.1 he
    exact (Evidence.touched_ofDirect _ _ _ _).2
  have hids : ∀ pieces : List Evidence,
      pieces.findSome? Evidence.starChain = (pieces.map Evidence.starChain).findSome? id := by
    intro pieces
    rw [List.findSome?_map]
    rfl
  rw [evidence, starChain_sum, List.findSome?_append, hdirect, Option.none_or, hids,
    map_starChain_chainEvidence]
  induction chainsTo c p t with
  | nil => rfl
  | cons chain chains ih =>
    rw [List.map_cons, List.findSome?_cons, List.find?_cons, ih]
    cases chain.throughStar <;> rfl

/-- The warnings of a verdict before they are thinned out. -/
def gathered (c : Component) (p : Project) (t : TraceIndex) : List Warning :=
  let e := evidence c p t
  let status := (conclude p e).1
  e.warnings
    ++ (if !e.namedCall && e.wholeModuleUse then e.wholeModuleWarnings else [])
    ++ starWarnings c e
    ++ dynamicWarnings p e
    ++ hiddenWarnings c p status
    ++ (if status != .reachable then t.warnings else [])
    ++ partialWarnings p status
    ++ skippedWarnings p

variable {about : WarningCode × Option Location}

theorem mem_abouts_wholeModule :
    about ∈ (if !(evidence c p t).namedCall && (evidence c p t).wholeModuleUse then
        (evidence c p t).wholeModuleWarnings else []).map Warning.about ↔
      ∃ file ∈ p.files, ∃ r ∈ file.imports, Names c r ∧ r.isReexport = false ∧
        ∃ b ∈ r.names, b.isWholeModule = true ∧ b.UsedIn file.callGraph ∧ ¬ CalledByName c p ∧
          about = (.namespaceImport, some r.location) := by
  constructor
  · intro habout
    split at habout
    · rename_i h
      rw [Bool.and_eq_true, Bool.not_eq_true', ← Bool.not_eq_true, namedCall_evidence_iff] at h
      obtain ⟨w, hw, rfl⟩ := List.mem_map.1 habout
      obtain ⟨file, hfile, r, hr, hnames, hreexport, b, hb, hused, rfl⟩ :=
        mem_wholeModuleWarnings_evidence.1 hw
      exact ⟨file, hfile, r, hr, hnames, hreexport, b, hb, hused.1, hused.2, h.1, rfl⟩
    · cases habout
  · rintro ⟨file, hfile, r, hr, hnames, hreexport, b, hb, hwhole, hused, hcalled, rfl⟩
    have hw : Evidence.wholeModuleWarning r b ∈ (evidence c p t).wholeModuleWarnings :=
      mem_wholeModuleWarnings_evidence.2
        ⟨file, hfile, r, hr, hnames, hreexport, b, hb, ⟨hwhole, hused⟩, rfl⟩
    have hnamed : (evidence c p t).namedCall = false :=
      Bool.eq_false_iff.2 (mt namedCall_evidence_iff.1 hcalled)
    rw [hnamed, wholeModuleUse_of_warned hw]
    exact List.mem_map.2 ⟨_, hw, rfl⟩

theorem mem_abouts_starWarnings :
    about ∈ (starWarnings c (evidence c p t)).map Warning.about ↔
      ∃ chain, (chainsTo c p t).find? (·.throughStar) = some chain ∧
        (¬ Counted c p t ∨ UsedThroughChain c p t ∧ ¬ CalledByName c p) ∧
          about = (.starImport, some chain.origin) := by
  have hrelied : (!(evidence c p t).namedCall && !(evidence c p t).wholeModuleUse &&
      !(evidence c p t).dynamicLoad && !(evidence c p t).directImport ||
        ((evidence c p t).barrelCall && !(evidence c p t).namedCall)) = true ↔
      ¬ Counted c p t ∨ UsedThroughChain c p t ∧ ¬ CalledByName c p := by
    rw [Bool.or_eq_true, relied_evidence_iff, Bool.and_eq_true, barrelCall_evidence_iff,
      Bool.not_eq_true', ← Bool.not_eq_true, namedCall_evidence_iff]
  unfold starWarnings
  rw [starChain_evidence]
  cases (chainsTo c p t).find? (·.throughStar) with
  | none => simp
  | some chain =>
    simp only [Option.map_some, Option.some.injEq, exists_eq_left']
    split
    · rename_i h
      simp [hrelied.1 h, Warning.about, Warning.at_]
    · rename_i h
      simp [mt hrelied.2 h]

theorem mem_abouts_dynamicWarnings :
    about ∈ (dynamicWarnings p (evidence c p t)).map Warning.about ↔
      ∃ file ∈ p.files, GivesPlace c p t file ∧ ∃ d ∈ file.callGraph.dynamicCode,
        about = (if d.kind.hidesImports then .dynamicImport else .dynamicCode,
          some d.location) := by
  simp only [dynamicWarnings, List.mem_map, List.mem_flatMap, List.mem_zipIdx_iff_getElem?,
    Prod.exists]
  constructor
  · rintro ⟨w, ⟨file, i, hfile, hw⟩, rfl⟩
    split at hw
    · rename_i htouched
      obtain ⟨d, hd, rfl⟩ := List.mem_map.1 hw
      refine ⟨file, List.mem_of_getElem? hfile, ?_, d, hd, rfl⟩
      rcases mem_touched_evidence.1 (List.contains_iff_mem.1 htouched) with
        ⟨file', hfile', hcounts⟩ | ⟨traced, htraced, rfl, file', r, hplace, hne⟩
      · obtain rfl : file' = file := Option.some.inj (hfile'.symm.trans hfile)
        exact .inl hcounts
      · have hfile' := (TracedImport.place?_eq_some_iff.1 hplace).1
        obtain rfl : file' = file := Option.some.inj (hfile'.symm.trans hfile)
        exact .inr ⟨traced, htraced, r, hplace, hne⟩
    · cases hw
  · rintro ⟨file, hfile, hgives, d, hd, rfl⟩
    -- a place of the file that the evidence comes from
    have hplace : ∃ i, p.files[i]? = some file ∧ i ∈ (evidence c p t).touched := by
      rcases hgives with hcounts | ⟨traced, htraced, r, hplace, hne⟩
      · obtain ⟨i, hi⟩ := List.getElem?_of_mem hfile
        exact ⟨i, hi, mem_touched_evidence.2 (.inl ⟨file, hi, hcounts⟩)⟩
      · exact ⟨traced.fileIndex, (TracedImport.place?_eq_some_iff.1 hplace).1,
          mem_touched_evidence.2 (.inr ⟨traced, htraced, rfl, file, r, hplace, hne⟩)⟩
    obtain ⟨i, hi, htouched⟩ := hplace
    refine ⟨dynamicWarning d, ⟨file, i, hi, ?_⟩, rfl⟩
    rw [if_pos (List.contains_iff_mem.2 htouched)]
    exact List.mem_map_of_mem hd

/-- A project computes a module name exactly when there is a first place where it does. -/
theorem isSome_firstComputedImport? (p : Project) :
    p.firstComputedImport?.isSome = p.hasDynamicImports := by
  rw [Project.firstComputedImport?, Option.isSome_map, Bool.eq_iff_iff, List.find?_isSome]
  simp only [Project.hasDynamicImports, CallGraph.hasDynamicImports, List.any_eq_true,
    List.mem_flatMap]
  constructor
  · rintro ⟨d, ⟨file, hfile, hd⟩, hhides⟩
    exact ⟨file, hfile, d, hd, hhides⟩
  · rintro ⟨file, hfile, d, hd, hhides⟩
    exact ⟨d, ⟨file, hfile, hd⟩, hhides⟩

theorem mem_abouts_hiddenWarnings {status : Status} :
    about ∈ (hiddenWarnings c p status).map Warning.about ↔
      ∃ l, p.firstComputedImport? = some l ∧ status = .notReachable ∧
        about = (.dynamicImport, some l) := by
  rw [hiddenWarnings, ← isSome_firstComputedImport?]
  cases p.firstComputedImport? with
  | none => simp
  | some l =>
    by_cases hstatus : status = .notReachable <;> simp [hstatus, Warning.about, Warning.new]

theorem mem_abouts_partialWarnings {status : Status} :
    about ∈ (partialWarnings p status).map Warning.about ↔
      p.completed = false ∧ status ≠ .unknown ∧ about = (.partialAnalysis, none) := by
  rw [partialWarnings]
  cases p.completed <;> by_cases hstatus : status = .unknown <;>
    simp [hstatus, Warning.about, Warning.new]

theorem mem_abouts_skippedWarnings :
    about ∈ (skippedWarnings p).map Warning.about ↔
      p.skipped ≠ [] ∧ about = (.skippedFiles, none) := by
  rw [skippedWarnings]
  cases p.skipped <;> simp [Warning.about, Warning.new]

/-- What the traces warn of, unless the component is reachable. -/
theorem mem_abouts_traces {status : Status} :
    about ∈ (if status != .reachable then t.warnings else []).map Warning.about ↔
      ∃ w ∈ t.warnings, status ≠ .reachable ∧ about = w.about := by
  by_cases hstatus : status = .reachable
  · simp [hstatus]
  · rw [if_pos (by simpa using hstatus), List.mem_map]
    refine exists_congr fun w => and_congr_right fun _ => ?_
    rw [and_iff_right hstatus, eq_comm]

/-- **The warnings that are gathered are those that have a cause.** -/
theorem mem_abouts_gathered (hfiles : p.files ≠ []) {code : WarningCode} {l : Option Location} :
    (code, l) ∈ (gathered c p t).map Warning.about ↔ Cause c p t code l := by
  simp only [gathered, List.map_append, List.mem_append, mem_abouts_evidence,
    mem_abouts_wholeModule, mem_abouts_starWarnings, mem_abouts_dynamicWarnings,
    mem_abouts_hiddenWarnings, mem_abouts_traces, mem_abouts_partialWarnings,
    mem_abouts_skippedWarnings, ← status_classify hfiles t c, or_assoc]
  constructor
  · rintro (⟨file, hfile, r, hr, hnames, hreexport, hnone, habout⟩ |
      ⟨traced, htraced, file, r, hplace, chain, hchain, habout⟩ |
      ⟨file, hfile, r, hr, hnames, hreexport, b, hb, hwhole, hused, hcalled, habout⟩ |
      ⟨chain, hfirst, hrelied, habout⟩ | ⟨file, hfile, hgives, d, hd, habout⟩ |
      ⟨l, hl, hstatus, habout⟩ | ⟨w, hw, hstatus, habout⟩ | ⟨hcompleted, hstatus, habout⟩ |
      ⟨hskipped, habout⟩) <;>
      obtain ⟨rfl, rfl⟩ := Prod.mk.inj habout
    · exact .unbound hfile hr hnames hreexport hnone
    · obtain ⟨hchain, hends⟩ := List.mem_filter.1 hchain
      exact .barrel htraced hplace hchain hends
    · exact .wholeModule hfile hr hnames hreexport hb hwhole hused hcalled
    · exact .star hfirst hrelied
    · exact .dynamic hfile hgives hd
    · exact .computed hl hstatus
    · exact .trace hw hstatus
    · exact .incomplete hcompleted hstatus
    · exact .skipped hskipped
  · intro hcause
    cases hcause with
    | @unbound file r hfile hr hnames hreexport hnone =>
      exact .inl ⟨file, hfile, r, hr, hnames, hreexport, hnone, rfl⟩
    | @barrel traced file r chain htraced hplace hchain hends =>
      have hmem : chain ∈ traced.outcome.chainsTo c := List.mem_filter.2 ⟨hchain, hends⟩
      exact .inr (.inl ⟨traced, htraced, file, r, hplace, chain, hmem, rfl⟩)
    | @wholeModule file r b hfile hr hnames hreexport hb hwhole hused hcalled =>
      exact .inr (.inr (.inl
        ⟨file, hfile, r, hr, hnames, hreexport, b, hb, hwhole, hused, hcalled, rfl⟩))
    | @star chain hfirst hrelied => exact .inr (.inr (.inr (.inl ⟨chain, hfirst, hrelied, rfl⟩)))
    | @dynamic file d hfile hgives hd =>
      exact .inr (.inr (.inr (.inr (.inl ⟨file, hfile, hgives, d, hd, rfl⟩))))
    | @computed l hl hstatus => exact .inr (.inr (.inr (.inr (.inr (.inl ⟨l, hl, hstatus, rfl⟩)))))
    | @trace w hw hstatus =>
      exact .inr (.inr (.inr (.inr (.inr (.inr (.inl ⟨w, hw, hstatus, rfl⟩))))))
    | incomplete hcompleted hstatus =>
      exact .inr (.inr (.inr (.inr (.inr (.inr (.inr (.inl ⟨hcompleted, hstatus, rfl⟩)))))))
    | skipped hskipped =>
      exact .inr (.inr (.inr (.inr (.inr (.inr (.inr (.inr ⟨hskipped, rfl⟩)))))))

/-- **Every warning has a cause, every cause has a warning, and there are no two of one kind at one
place.**  For every component, every index of traces and every project with a file that was read:
no two warnings of the verdict have the same code and the same location; for each cause there is a
warning with its code and its location; and each warning has a cause, so that without a cause there
is no warning. -/
theorem warnings_classify_iff_cause (c : Component) (p : Project) (t : TraceIndex)
    (hfiles : p.files ≠ []) :
    (classify p t c).warnings.Pairwise (fun a b => a.same b = false) ∧
      (∀ code l, Cause c p t code l → ∃ w ∈ (classify p t c).warnings,
        w.code = code ∧ Warning.sameLocation w.location l = true) ∧
      ∀ w ∈ (classify p t c).warnings, Cause c p t w.code w.location := by
  have hwarnings : (classify p t c).warnings = Warning.distinct (gathered c p t) := by
    rw [classify, if_neg (by simpa using hfiles)]
    rfl
  have hfirsts : IsFirsts Warning.key (gathered c p t) (classify p t c).warnings := by
    rw [hwarnings]
    exact isFirsts_distinctBy (fun a b => Warning.same_iff (a := a) (b := b)) _
  refine ⟨(List.pairwise_map.1 hfirsts.distinct).imp fun hne => ?_, fun code l hcause => ?_,
    fun w hw => ?_⟩
  · exact Bool.eq_false_iff.2 (mt Warning.same_iff.1 hne)
  · obtain ⟨w, hw, habout⟩ := List.mem_map.1 ((mem_abouts_gathered hfiles).2 hcause)
    obtain ⟨rfl, rfl⟩ := Prod.mk.inj habout
    obtain ⟨kept, hkept, hkey⟩ := hfirsts.exists_key_eq hw
    have hsame := Warning.same_iff.2 hkey
    rw [Warning.same, Bool.and_eq_true, beq_iff_eq] at hsame
    exact ⟨kept, hkept, hsame⟩
  · exact (mem_abouts_gathered hfiles).1 (List.mem_map_of_mem (hfirsts.sublist.subset hw))

/-- `a.ts` calls `x` of `b.ts`, which forwards everything from `q`, and runs a text by a timer; a
third file could not be read, and the analysis was cut off.  Each of these is the cause of one
warning, and so is the `export *`. -/
theorem warnings_classify_iff_cause_barrel :
    let use : ImportRecord := ⟨"./b", .named, [⟨"x", "x"⟩], false, ⟨⟨"a.ts"⟩, 1, 1, ""⟩⟩
    let forward : ImportRecord := ⟨"q", .reexportAll, [], false, ⟨⟨"b.ts"⟩, 1, 1, ""⟩⟩
    let chain : ReexportChain := ⟨"q", [⟨"b.ts"⟩], [], [], 1, true, forward.location⟩
    let timer : DynamicCode := ⟨.stringTimer, ⟨⟨"a.ts"⟩, 2, 1, ""⟩, "setTimeout() with a string"⟩
    let a : ParsedFile := ⟨⟨"/a.ts"⟩, ⟨"a.ts"⟩, [use],
      { calledNames := NameSet.ofList ["x"], dynamicCode := [timer] }⟩
    let b : ParsedFile := ⟨⟨"/b.ts"⟩, ⟨"b.ts"⟩, [forward], {}⟩
    let p : Project := ⟨⟨"/"⟩, [a, b], [⟨⟨"/c.ts"⟩, .notModule⟩], 4, false⟩
    let t : TraceIndex := { traced := [⟨0, 0, { chains := [chain] }⟩] }
    let r := classify p t { name := "q" }
    p.files ≠ [] ∧ r.warnings.map Warning.code =
        [.barrelFile, .starImport, .dynamicCode, .partialAnalysis, .skippedFiles] ∧
      (∃ w ∈ r.warnings, w.code = .barrelFile ∧
        Warning.sameLocation w.location (some use.location) = true) ∧
      ∀ w ∈ r.warnings, Cause { name := "q" } p t w.code w.location := by
  intro use forward chain timer a b p t r
  have hfiles : p.files ≠ [] := by simp [p]
  obtain ⟨-, hcomplete, hsound⟩ := warnings_classify_iff_cause { name := "q" } p t hfiles
  have hcause : Cause { name := "q" } p t .barrelFile (some use.location) :=
    @Cause.barrel _ p t ⟨0, 0, { chains := [chain] }⟩ a use chain (by simp [t]) rfl (by simp)
      (by decide)
  exact ⟨hfiles, by decide, hcomplete _ _ hcause, hsound⟩

end Verdict
end DependencyUse
