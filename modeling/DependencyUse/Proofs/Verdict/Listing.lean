/-
# The verdict does not hang on the order of the lists

Everything that a verdict is made from comes in lists.  They may be listed in another order:

| listed anew | how |
| --- | --- |
| the files of a project, the imports of a file | each moves to a new place (`Renumbering`) |
| the names of an import, the chains of an outcome | permuted |
| the traces | permuted, and their places renumbered |

A verdict without its warnings hangs only on the facts that the evidence states (`Fact`): which
flags are set, and which styles, members and locations there are.  A fact is stated by a sum
exactly when a piece states it, and every piece has one in the other listing that states the
same facts.
-/

import DependencyUse.Proofs.Order
import DependencyUse.Proofs.Verdict.Consistency
import Mathlib.Data.Finset.Card
import Mathlib.Data.List.Perm.Basic
import Mathlib.Logic.Equiv.Basic

namespace DependencyUse

/-- New places for the files of a project, and for the imports of each file by its old place. -/
structure Renumbering where
  file : Equiv.Perm Nat
  record (i : Nat) : Equiv.Perm Nat

/-- The way back to the old places. -/
def Renumbering.back (n : Renumbering) : Renumbering where
  file := n.file.symm
  record i := (n.record (n.file.symm i)).symm

/-- The same import, with its names in another order. -/
def ImportRecord.Relists (r r' : ImportRecord) : Prop :=
  ∃ names, r.names.Perm names ∧ r' = { r with names }

/-- The same calls and mentions, and the same imports at new places. -/
structure ParsedFile.Relists (place : Equiv.Perm Nat) (file file' : ParsedFile) : Prop where
  imports (j : Nat) : Option.Rel ImportRecord.Relists file.imports[j]? file'.imports[place j]?
  callGraph : file'.callGraph = file.callGraph

/-- The same project, with its files and their imports at new places. -/
structure Project.Relists (n : Renumbering) (p p' : Project) : Prop where
  files (i : Nat) : Option.Rel (ParsedFile.Relists (n.record i)) p.files[i]? p'.files[n.file i]?
  discovered : p'.discovered = p.discovered
  completed : p'.completed = p.completed

/-- The trace of the same import, with its chains in another order. -/
structure TracedImport.Relists (n : Renumbering) (traced traced' : TracedImport) : Prop where
  fileIndex : traced'.fileIndex = n.file traced.fileIndex
  recordIndex : traced'.recordIndex = n.record traced.fileIndex traced.recordIndex
  chains : traced.outcome.chains.Perm traced'.outcome.chains

/-- The traces of the same imports, in another order.  The warnings may be any. -/
def TraceIndex.Relists (n : Renumbering) (t t' : TraceIndex) : Prop :=
  ∃ traced, List.Forall₂ (TracedImport.Relists n) t.traced traced ∧ traced.Perm t'.traced

/-- The locations of the imports of a project. -/
def Project.places (p : Project) : List Location :=
  p.files.flatMap fun file => file.imports.map ImportRecord.location

theorem Project.mem_places {p : Project} {file : ParsedFile} {r : ImportRecord}
    (hfile : file ∈ p.files) (hr : r ∈ file.imports) : r.location ∈ p.places :=
  List.mem_flatMap.2 ⟨file, hfile, List.mem_map_of_mem hr⟩

/-- No location is spelled in two ways. -/
def Project.SpellsAlike (p : Project) : Prop :=
  ∀ a ∈ p.places, ∀ b ∈ p.places, a.same b = true → a = b

/-- The same verdict but for the warnings: the same status, confidence and notes, the same
styles and members, and the same places. -/
structure ComponentResult.Matches (r r' : ComponentResult) : Prop where
  status : r'.status = r.status
  confidence : r'.confidence = r.confidence
  importStyles : r'.usage.importStyles = r.usage.importStyles
  usedMembers : r'.usage.usedMembers = r.usage.usedMembers
  referencedMembers : r'.usage.referencedMembers = r.usage.referencedMembers
  vulnerable : r'.usage.vulnerableFunctionsCalled = r.usage.vulnerableFunctionsCalled
  locations : List.Forall₂ (fun a b => a.same b = true) r'.usage.locations r.usage.locations
  notes : r'.notes = r.notes

theorem ComponentResult.Matches.usage_eq {r r' : ComponentResult} (h : r.Matches r')
    (hlocations : r'.usage.locations = r.usage.locations) : r'.usage = r.usage := by
  rw [Usage.mk.injEq]
  exact ⟨h.importStyles, h.usedMembers, h.referencedMembers, h.vulnerable, hlocations⟩

section Related

variable {α β : Type} {R : α → β → Prop} {S : β → α → Prop} {x : Option α} {y : Option β}

theorem exists_of_rel_some {a : α} (h : Option.Rel R x y) (hx : x = some a) :
    ∃ b, y = some b ∧ R a b := by
  subst hx
  cases h with
  | some hab => exact ⟨_, rfl, hab⟩

theorem rel_swap (hswap : ∀ a b, R a b → S b a) (h : Option.Rel R x y) : Option.Rel S y x := by
  cases h with
  | some hab => exact .some (hswap _ _ hab)
  | none => exact .none

/-- Two things that change places. -/
theorem rel_swap_pair {Q : α → α → Prop} {a b a' b' : α} (ha : Q a a') (hb : Q b b') (i : Nat) :
    Option.Rel Q [a, b][i]? [b', a'][Equiv.swap 0 1 i]? := by
  rcases i with _ | _ | i
  · exact .some ha
  · exact .some hb
  · rw [Equiv.swap_apply_of_ne_of_ne (by omega) (by omega)]
    exact .none

end Related

theorem ImportRecord.Relists.symm {r r' : ImportRecord} (h : r.Relists r') : r'.Relists r := by
  obtain ⟨names, hperm, rfl⟩ := h
  exact ⟨r.names, hperm.symm, rfl⟩

theorem ParsedFile.Relists.symm {place : Equiv.Perm Nat} {file file' : ParsedFile}
    (h : file.Relists place file') : file'.Relists place.symm file where
  imports j := by
    have hj := h.imports (place.symm j)
    rw [Equiv.apply_symm_apply] at hj
    exact rel_swap (fun _ _ => ImportRecord.Relists.symm) hj
  callGraph := h.callGraph.symm

theorem ParsedFile.Relists.exists_record {place : Equiv.Perm Nat} {file file' : ParsedFile}
    (h : file.Relists place file') {r : ImportRecord} (hr : r ∈ file.imports) :
    ∃ r' ∈ file'.imports, r.Relists r' := by
  obtain ⟨j, hj⟩ := List.getElem?_of_mem hr
  obtain ⟨r', hj', hrelists⟩ := exists_of_rel_some (h.imports j) hj
  exact ⟨r', List.mem_of_getElem? hj', hrelists⟩

namespace Project.Relists

variable {n : Renumbering} {p p' : Project} (h : p.Relists n p')
include h

theorem symm : p'.Relists n.back p where
  files i := by
    have hi := h.files (n.file.symm i)
    rw [Equiv.apply_symm_apply] at hi
    exact rel_swap (fun _ _ => ParsedFile.Relists.symm) hi
  discovered := h.discovered.symm
  completed := h.completed.symm

/-- A file is at its new place. -/
theorem exists_file {i : Nat} {file : ParsedFile} (hfile : p.files[i]? = some file) :
    ∃ file', p'.files[n.file i]? = some file' ∧ file.Relists (n.record i) file' :=
  exists_of_rel_some (h.files i) hfile

/-- A place is one of the first project exactly when its new place is one of the second. -/
theorem lt_length_iff (i : Nat) : i < p.files.length ↔ n.file i < p'.files.length := by
  have hi := h.files i
  cases hp : p.files[i]? with
  | none =>
    rw [hp] at hi
    cases hp' : p'.files[n.file i]? with
    | none => rw [List.getElem?_eq_none_iff] at hp hp'; omega
    | some file' => rw [hp'] at hi; cases hi
  | some file =>
    obtain ⟨file', hp', -⟩ := h.exists_file hp
    exact iff_of_true (List.getElem?_eq_some_iff.1 hp).1 (List.getElem?_eq_some_iff.1 hp').1

/-- **The two listings have the same number of files.** -/
theorem length_files : p'.files.length = p.files.length := by
  have himage : (Finset.range p.files.length).map n.file.toEmbedding
      = Finset.range p'.files.length := by
    ext i
    simp only [Finset.mem_map_equiv, Finset.mem_range]
    rw [h.lt_length_iff, Equiv.apply_symm_apply]
  have hcard := congrArg Finset.card himage
  rwa [Finset.card_map, Finset.card_range, Finset.card_range, eq_comm] at hcard

theorem hasDynamicImports_of (hcomputed : p.hasDynamicImports = true) :
    p'.hasDynamicImports = true := by
  obtain ⟨file, hfile, hfound⟩ := List.any_eq_true.1 hcomputed
  obtain ⟨i, hi⟩ := List.getElem?_of_mem hfile
  obtain ⟨file', hi', hrelists⟩ := h.exists_file hi
  refine List.any_eq_true.2 ⟨file', List.mem_of_getElem? hi', ?_⟩
  rwa [hrelists.callGraph]

theorem hasDynamicImports : p'.hasDynamicImports = p.hasDynamicImports :=
  Bool.eq_iff_iff.2 ⟨h.symm.hasDynamicImports_of, h.hasDynamicImports_of⟩

/-- **A traced import is at its new place**, in a file with the same calls and mentions. -/
theorem place? {traced traced' : TracedImport} (ht : traced.Relists n traced') {file : ParsedFile}
    {r : ImportRecord} (hplace : traced.place? p = some (file, r)) :
    ∃ file' r', traced'.place? p' = some (file', r') ∧ file'.callGraph = file.callGraph ∧
      r.Relists r' := by
  obtain ⟨hfile, hr⟩ := TracedImport.place?_eq_some_iff.1 hplace
  obtain ⟨file', hfile', hfiles⟩ := h.exists_file hfile
  obtain ⟨r', hr', hrelists⟩ := exists_of_rel_some (hfiles.imports _) hr
  rw [← ht.fileIndex] at hfile'
  rw [← ht.recordIndex] at hr'
  exact ⟨file', r', TracedImport.place?_eq_some_iff.2 ⟨hfile', hr'⟩, hfiles.callGraph, hrelists⟩

end Project.Relists

theorem TracedImport.Relists.symm {n : Renumbering} {traced traced' : TracedImport}
    (h : traced.Relists n traced') : traced'.Relists n.back traced where
  fileIndex := by
    rw [Renumbering.back, h.fileIndex, Equiv.symm_apply_apply]
  recordIndex := by
    show traced.recordIndex = (n.record (n.file.symm traced'.fileIndex)).symm traced'.recordIndex
    rw [h.fileIndex, h.recordIndex, Equiv.symm_apply_apply, Equiv.symm_apply_apply]
  chains := h.chains.symm

namespace TraceIndex.Relists

variable {n : Renumbering} {t t' : TraceIndex} (h : t.Relists n t')
include h

theorem symm : t'.Relists n.back t := by
  obtain ⟨traced, hforall, hperm⟩ := h
  have hback : List.Forall₂ (TracedImport.Relists n.back) traced t.traced :=
    (hforall.imp fun _ _ => TracedImport.Relists.symm).flip
  exact List.perm_comp_forall₂ hperm.symm hback

theorem exists_traced {traced : TracedImport} (htraced : traced ∈ t.traced) :
    ∃ traced' ∈ t'.traced, traced.Relists n traced' := by
  obtain ⟨middle, hforall, hperm⟩ := h
  obtain ⟨i, hi, rfl⟩ := List.getElem_of_mem htraced
  have hlen : i < middle.length := hforall.length_eq ▸ hi
  exact ⟨middle[i], hperm.subset (List.getElem_mem hlen), hforall.get hi hlen⟩

theorem mem_chains {chain : ReexportChain} (hchain : chain ∈ t.chains) : chain ∈ t'.chains := by
  obtain ⟨traced, htraced, hchain⟩ := List.mem_flatMap.1 hchain
  obtain ⟨traced', htraced', hrelists⟩ := h.exists_traced htraced
  exact List.mem_flatMap.2 ⟨traced', htraced', hrelists.chains.subset hchain⟩

/-- **The same imports count directly.** -/
theorem isDirect {c : Component} {r r' : ImportRecord} (hr : r.Relists r')
    (hdirect : Verdict.isDirect c t r = true) : Verdict.isDirect c t' r' = true := by
  obtain ⟨names, -, rfl⟩ := hr
  obtain ⟨hnames, hcounts⟩ := Verdict.isDirect_iff.1 hdirect
  refine Verdict.isDirect_iff.2 ⟨hnames, ?_⟩
  rintro ⟨hre, chain, hchain, horigin⟩
  exact hcounts ⟨hre, chain, h.symm.mem_chains hchain, horigin⟩

end TraceIndex.Relists

namespace Evidence

/-- What evidence can state, apart from warnings and the numbers of files. -/
inductive Fact where
  | namedCall
  | wholeModuleUse
  | dynamicLoad
  | barrelCall
  | directImport
  | chain
  | style (kind : ImportKind)
  | used (member : String)
  | referenced (member : String)
  | location (l : Location)

/-- The evidence states a fact. -/
def states : Fact → Evidence → Bool
  | .namedCall, e => e.namedCall
  | .wholeModuleUse, e => e.wholeModuleUse
  | .dynamicLoad, e => e.dynamicLoad
  | .barrelCall, e => e.barrelCall
  | .directImport, e => e.directImport
  | .chain, e => e.chain
  | .style kind, e => e.styles.contains kind
  | .used member, e => e.used.contains member
  | .referenced member, e => e.referenced.contains member
  | .location l, e => e.locations.contains l

theorem isFlag_states (fact : Fact) : IsFlag (states fact) where
  empty := by cases fact <;> rfl
  append a b := by
    cases fact with
    | style kind => exact List.contains_append
    | used member => exact List.contains_append
    | referenced member => exact List.contains_append
    | location l => exact List.contains_append
    | _ => rfl

theorem IsFlag.sum_map_any {α : Type} {f : Evidence → Bool} (hf : IsFlag f) (xs : List α)
    (piece : α → Evidence) : f (sum (xs.map piece)) = xs.any fun x => f (piece x) := by
  rw [Bool.eq_iff_iff, hf.sum_map_iff, List.any_eq_true]

/-- **A direct import states the same facts** from whatever file and with its names in whatever
order. -/
theorem states_ofDirect (c : Component) (g : CallGraph) (i i' : Nat) {r r' : ImportRecord}
    (h : r.Relists r') (fact : Fact) :
    (ofDirect c g i' r').states fact = (ofDirect c g i r).states fact := by
  obtain ⟨names, hperm, rfl⟩ := h
  have hflag := isFlag_states fact
  have hseen : states fact ({ directImport := true } ++ saw i' { r with names })
      = states fact ({ directImport := true } ++ saw i r) := by
    cases fact <;> rfl
  show states fact (if r.isReexport then _ else if names.isEmpty then _ ++ ofUnbound r
    else _ ++ sum (names.map (ofBinding c g r))) = _
  rw [ofDirect, hperm.isEmpty_eq]
  split
  · exact hseen
  · split
    · rw [hflag.append _ (ofUnbound r), hflag.append _ (ofUnbound r), hseen]
    · rw [hflag.append _ (sum _), hflag.append _ (sum _), hseen, hflag.sum_map_any,
        hflag.sum_map_any, hperm.any_eq]

/-- **A chain states the same facts** from whatever file and with the names of its import in
whatever order. -/
theorem states_ofChain (g : CallGraph) (i i' : Nat) {r r' : ImportRecord} (h : r.Relists r')
    (chain : ReexportChain) (fact : Fact) :
    (ofChain g i' r' chain).states fact = (ofChain g i r chain).states fact := by
  obtain ⟨names, hperm, rfl⟩ := h
  have hflag := isFlag_states fact
  have hsaw : states fact (saw i' { r with names }) = states fact (saw i r) := by
    cases fact <;> rfl
  rw [ofChain, ofChain, hflag.append, hflag.append, hflag.append, hflag.append, hsaw,
    hflag.sum_map_any, hflag.sum_map_any, hperm.any_eq]

/-- No binding has a location of its own. -/
theorem states_location_ofBinding (c : Component) (g : CallGraph) (r : ImportRecord)
    (b : BoundName) (l : Location) : (ofBinding c g r b).states (.location l) = false := by
  unfold ofBinding ofWholeModule ofNamed
  dsimp only
  repeat' split
  all_goals rfl

theorem states_location_ofChainBinding (chain : ReexportChain) (g : CallGraph) (b : BoundName)
    (l : Location) : (ofChainBinding chain g b).states (.location l) = false := by
  unfold ofChainBinding
  repeat' split
  all_goals rfl

theorem states_location_ofUnbound (r : ImportRecord) (l : Location) :
    (ofUnbound r).states (.location l) = false := by
  unfold ofUnbound
  split <;> rfl

/-- **The location of a direct import** is the one of its record. -/
theorem states_location_ofDirect (c : Component) (g : CallGraph) (i : Nat) (r : ImportRecord)
    (l : Location) : (ofDirect c g i r).states (.location l) = [r.location].contains l := by
  have hflag := isFlag_states (.location l)
  rw [ofDirect]
  split
  · rfl
  · split
    · rw [hflag.append _ (ofUnbound r), states_location_ofUnbound, Bool.or_false]
      rfl
    · rw [hflag.append _ (sum _), hflag.sum_map_eq_false
        fun b _ => states_location_ofBinding c g r b l, Bool.or_false]
      rfl

/-- **The location of a chain** is the one of the import that it starts from. -/
theorem states_location_ofChain (g : CallGraph) (i : Nat) (r : ImportRecord)
    (chain : ReexportChain) (l : Location) :
    (ofChain g i r chain).states (.location l) = [r.location].contains l := by
  have hflag := isFlag_states (.location l)
  rw [ofChain, hflag.append _ (sum _), hflag.sum_map_eq_false
    fun b _ => states_location_ofChainBinding chain g b l, Bool.or_false]
  rfl

end Evidence

namespace Verdict

section Listings

variable {n : Renumbering} {c : Component} {p p' : Project} {t t' : TraceIndex}

/-- **Every piece of evidence has one in the other listing** that states the same facts. -/
theorem exists_piece_of_relists (hp : p.Relists n p') (ht : t.Relists n t') {e : Evidence}
    (he : e ∈ pieces c p t) :
    ∃ e' ∈ pieces c p' t', ∀ fact, e'.states fact = e.states fact := by
  rcases List.mem_append.1 he with he | he
  · obtain ⟨i, file, hfile, r, hr, hdirect, rfl⟩ := mem_directEvidence.1 he
    obtain ⟨file', hfile', hfiles⟩ := hp.exists_file hfile
    obtain ⟨r', hr', hrelists⟩ := hfiles.exists_record hr
    refine ⟨_, List.mem_append_left _ (mem_directEvidence.2
      ⟨n.file i, file', hfile', r', hr', ht.isDirect hrelists hdirect, rfl⟩), fun fact => ?_⟩
    rw [hfiles.callGraph]
    exact Evidence.states_ofDirect c _ _ _ hrelists fact
  · obtain ⟨traced, htraced, file, r, hplace, chain, hchain, hmatches, rfl⟩ :=
      mem_chainEvidence.1 he
    obtain ⟨traced', htraced', hsame⟩ := ht.exists_traced htraced
    obtain ⟨file', r', hplace', hgraph, hrelists⟩ := hp.place? hsame hplace
    refine ⟨_, List.mem_append_right _ (mem_chainEvidence.2 ⟨traced', htraced', file', r', hplace',
      chain, hsame.chains.subset hchain, hmatches, rfl⟩), fun fact => ?_⟩
    rw [hgraph]
    exact Evidence.states_ofChain _ _ _ hrelists chain fact

theorem states_evidence_of_relists (hp : p.Relists n p') (ht : t.Relists n t')
    {fact : Evidence.Fact} (h : (evidence c p t).states fact = true) :
    (evidence c p' t').states fact = true := by
  obtain ⟨e, he, hstates⟩ := ((Evidence.isFlag_states fact).sum_iff _).1 h
  obtain ⟨e', he', hsame⟩ := exists_piece_of_relists hp ht he
  exact ((Evidence.isFlag_states fact).sum_iff _).2 ⟨e', he', (hsame fact).trans hstates⟩

/-- **The evidence states the same facts in both listings.** -/
theorem states_evidence (hp : p.Relists n p') (ht : t.Relists n t') (fact : Evidence.Fact) :
    (evidence c p' t').states fact = (evidence c p t).states fact :=
  Bool.eq_iff_iff.2
    ⟨states_evidence_of_relists hp.symm ht.symm, states_evidence_of_relists hp ht⟩

/-- **The locations of the evidence are locations of imports.** -/
theorem mem_places_of_evidence {l : Location} (h : l ∈ (evidence c p t).locations) :
    l ∈ p.places := by
  obtain ⟨e, he, hstates⟩ := ((Evidence.isFlag_states (.location l)).sum_iff _).1
    (List.contains_iff_mem.2 h)
  rcases List.mem_append.1 he with he | he
  · obtain ⟨i, file, hfile, r, hr, -, rfl⟩ := mem_directEvidence.1 he
    rw [Evidence.states_location_ofDirect, List.contains_iff_mem, List.mem_singleton] at hstates
    exact hstates ▸ Project.mem_places (List.mem_of_getElem? hfile) hr
  · obtain ⟨traced, -, file, r, hplace, chain, -, -, rfl⟩ := mem_chainEvidence.1 he
    rw [Evidence.states_location_ofChain, List.contains_iff_mem, List.mem_singleton] at hstates
    obtain ⟨hfile, hr⟩ := TracedImport.place?_eq_some_iff.1 hplace
    exact hstates ▸ Project.mem_places (List.mem_of_getElem? hfile) (List.mem_of_getElem? hr)

end Listings

theorem mem_iff_of_contains_eq {α : Type} [DecidableEq α] {xs ys : List α} {x : α}
    (h : xs.contains x = ys.contains x) : x ∈ xs ↔ x ∈ ys := by
  rw [← List.contains_iff_mem, ← List.contains_iff_mem, h]

section Facts

variable {e e' : Evidence} (h : ∀ fact, e'.states fact = e.states fact)
include h

theorem conclude_congr {p p' : Project} (hcompleted : p'.completed = p.completed)
    (hcomputed : p'.hasDynamicImports = p.hasDynamicImports) : conclude p' e' = conclude p e := by
  have hnamed : e'.namedCall = e.namedCall := h .namedCall
  have hwhole : e'.wholeModuleUse = e.wholeModuleUse := h .wholeModuleUse
  have hload : e'.dynamicLoad = e.dynamicLoad := h .dynamicLoad
  have hbarrel : e'.barrelCall = e.barrelCall := h .barrelCall
  have hdirect : e'.directImport = e.directImport := h .directImport
  have hchain : e'.chain = e.chain := h .chain
  rw [conclude, conclude, hnamed, hwhole, hload, hbarrel, hdirect, hchain, hcompleted, hcomputed]

theorem ofList_used_congr : NameSet.ofList e'.used = NameSet.ofList e.used :=
  NameSet.ofList_congr fun member => mem_iff_of_contains_eq (h (.used member))

theorem ofList_referenced_congr :
    NameSet.ofList e'.referenced = NameSet.ofList e.referenced :=
  NameSet.ofList_congr fun member => mem_iff_of_contains_eq (h (.referenced member))

theorem importStyles_congr :
    (ImportKind.all.filter fun kind => e'.styles.contains kind)
      = ImportKind.all.filter fun kind => e.styles.contains kind :=
  List.filter_congr fun kind _ => h (.style kind)

theorem mem_locations_congr (l : Location) : l ∈ e'.locations ↔ l ∈ e.locations :=
  mem_iff_of_contains_eq (h (.location l))

/-- **The places are listed alike**, up to how they are spelled. -/
theorem key_locations_congr :
    (sortUnique Location.cmp e'.locations).map Location.key
      = (sortUnique Location.cmp e.locations).map Location.key := by
  refine @map_sortUnique_congr _ Location.cmp _ Location.key (fun _ _ => Location.cmp_eq_eq_iff)
    _ _ _ fun k => ?_
  simp only [List.mem_map, mem_locations_congr h]

end Facts

theorem notes_congr {p p' : Project} (hlength : p'.files.length = p.files.length)
    (hdiscovered : p'.discovered = p.discovered) (c : Component) (status : Status)
    (vulnerable : NameSet) : notes c p' status vulnerable = notes c p status vulnerable := by
  unfold notes progressText
  rw [hlength, hdiscovered]

/-- Lists of the same keys are the same, if no two things in them have one key. -/
theorem eq_of_map_key_eq {α κ : Type} {key : α → κ} {xs ys : List α} (h : xs.map key = ys.map key)
    (hinj : ∀ x ∈ xs, ∀ y ∈ ys, key x = key y → x = y) : xs = ys := by
  induction xs generalizing ys with
  | nil => exact (List.map_eq_nil_iff.1 h.symm).symm
  | cons x xs ih =>
    cases ys with
    | nil => cases h
    | cons y ys =>
      obtain ⟨hhead, htail⟩ := List.cons.inj h
      rw [hinj x (List.mem_cons_self ..) y (List.mem_cons_self ..) hhead, ih htail
        fun x hx y hy => hinj x (List.mem_cons_of_mem _ hx) y (List.mem_cons_of_mem _ hy)]

/-- **The same facts give the same verdict.** -/
theorem matches_ofEvidence {n : Renumbering} {p p' : Project} (hp : p.Relists n p')
    (t t' : TraceIndex) (c : Component) {e e' : Evidence}
    (h : ∀ fact, e'.states fact = e.states fact) :
    (ofEvidence c p t e).Matches (ofEvidence c p' t' e') := by
  have hconclude : conclude p' e' = conclude p e :=
    conclude_congr h hp.completed hp.hasDynamicImports
  have hused := ofList_used_congr h
  have hreferenced := ofList_referenced_congr h
  constructor
  case status => exact congrArg Prod.fst hconclude
  case confidence =>
    show (if ((NameSet.ofList e'.used).inter _).isEmpty then (conclude p' e').2 else _) = _
    rw [hused, hconclude]
    rfl
  case importStyles => exact importStyles_congr h
  case usedMembers => exact congrArg NameSet.toList hused
  case referencedMembers =>
    show ((NameSet.ofList e'.referenced).diff (NameSet.ofList e'.used)).toList = _
    rw [hused, hreferenced]
    rfl
  case vulnerable =>
    show ((NameSet.ofList e'.used).inter _).toList = _
    rw [hused]
    rfl
  case locations =>
    have hkeys := key_locations_congr h
    rw [← List.forall₂_eq_eq_eq, List.forall₂_map_left_iff, List.forall₂_map_right_iff] at hkeys
    exact hkeys.imp fun _ _ => Location.same_iff.2
  case notes =>
    show notes c p' (conclude p' e').1 ((NameSet.ofList e'.used).inter _) = _
    rw [hused, hconclude, notes_congr hp.length_files hp.discovered]
    rfl

theorem matches_nothingParsed {p p' : Project} (hdiscovered : p'.discovered = p.discovered)
    (c : Component) : (nothingParsed c p).Matches (nothingParsed c p') where
  status := rfl
  confidence := rfl
  importStyles := rfl
  usedMembers := rfl
  referencedMembers := rfl
  vulnerable := rfl
  locations := .nil
  notes := by rw [nothingParsed, nothingParsed, hdiscovered]

/-- **The verdict does not hang on the order of the lists.**  For every component, project and
index of traces: whatever new places the files and the imports of each file are given, with the
places in the index renumbered in the same way, and in whatever order the names of the imports,
the traces and the chains of each outcome come, status, confidence, notes, styles, members and
affected functions are the same, and so are the places one by one.  If no location of an import
is spelled in two ways, the usage is the same to the letter. -/
theorem matches_classify_of_relists (n : Renumbering) (p p' : Project) (t t' : TraceIndex)
    (c : Component) (hp : p.Relists n p') (ht : t.Relists n t') :
    (classify p t c).Matches (classify p' t' c) ∧
      (p.SpellsAlike → (classify p' t' c).usage = (classify p t c).usage) := by
  have hempty : p'.files.isEmpty = p.files.isEmpty := by
    rw [Bool.eq_iff_iff, List.isEmpty_iff_length_eq_zero, List.isEmpty_iff_length_eq_zero,
      hp.length_files]
  rw [classify, classify, hempty]
  split
  · exact ⟨matches_nothingParsed hp.discovered c, fun _ => rfl⟩
  · have hfacts := states_evidence (c := c) hp ht
    have hmatches := matches_ofEvidence hp t t' c hfacts
    refine ⟨hmatches, fun halike => hmatches.usage_eq ?_⟩
    refine eq_of_map_key_eq (key_locations_congr hfacts) fun a ha b hb hkey => ?_
    have ha := (mem_locations_congr hfacts a).1 (mem_of_mem_sortUnique ha)
    exact halike a (mem_places_of_evidence ha) b
      (mem_places_of_evidence (mem_of_mem_sortUnique hb)) (Location.same_iff.2 hkey)

/-- The hypotheses are satisfiable where everything is listed anew and the warnings change:
`a.ts` imports `x` and `y` and all of `b.ts`, which forwards all of `q` and `x` of `q/x`. -/
theorem matches_classify_of_relists_swapped :
    let at_ (file : String) (line : Nat) : Location := ⟨⟨file⟩, line, 1, ""⟩
    let named (names : List BoundName) : ImportRecord := ⟨"./b", .named, names, false, at_ "a.ts" 1⟩
    let whole : ImportRecord := ⟨"./b", .whole, [⟨"*", "b"⟩], false, at_ "a.ts" 2⟩
    let star : ImportRecord := ⟨"q", .reexportAll, [], false, at_ "b.ts" 1⟩
    let single : ImportRecord := ⟨"q/x", .reexport, [⟨"x", "x"⟩], false, at_ "b.ts" 2⟩
    let a (imports : List ImportRecord) : ParsedFile := ⟨⟨"/a.ts"⟩, ⟨"a.ts"⟩, imports,
      { calledNames := NameSet.ofList ["b.f", "x"], referencedNames := NameSet.ofList ["y"] }⟩
    let b (imports : List ImportRecord) : ParsedFile := ⟨⟨"/b.ts"⟩, ⟨"b.ts"⟩, imports, {}⟩
    let all : ReexportChain := ⟨"q", [⟨"b.ts"⟩], [], [], 1, true, at_ "b.ts" 1⟩
    let one : ReexportChain := ⟨"q/x", [⟨"b.ts"⟩], ["x"], [⟨"x", "x"⟩], 1, false, at_ "b.ts" 2⟩
    let n : Renumbering := ⟨Equiv.swap 0 1, fun _ => Equiv.swap 0 1⟩
    let p : Project := ⟨⟨"/"⟩, [a [named [⟨"x", "x"⟩, ⟨"y", "y"⟩], whole], b [star, single]], [],
      2, true⟩
    let p' : Project := ⟨⟨"/"⟩, [b [single, star], a [whole, named [⟨"y", "y"⟩, ⟨"x", "x"⟩]]], [],
      2, true⟩
    let t : TraceIndex := { traced := [⟨0, 0, { chains := [all, one] }⟩,
      ⟨0, 1, { chains := [all, one] }⟩] }
    let t' : TraceIndex := { traced := [⟨1, 0, { chains := [all, one] }⟩,
      ⟨1, 1, { chains := [one, all] }⟩] }
    let c : Component := { name := "q", vulnerabilities := [⟨"v", none, ["f"]⟩] }
    p.Relists n p' ∧ t.Relists n t' ∧ p.SpellsAlike ∧
      (classify p t c).status = .reachable ∧ (classify p t c).usage.usedMembers = ["f", "x"] ∧
      (classify p' t' c).warnings ≠ (classify p t c).warnings ∧
      (classify p t c).Matches (classify p' t' c) ∧
      (classify p' t' c).usage = (classify p t c).usage := by
  intro at_ named whole star single a b all one n p p' t t' c
  have hsame : ∀ r : ImportRecord, r.Relists r := fun r => ⟨r.names, .refl _, rfl⟩
  have hnamed : (named [⟨"x", "x"⟩, ⟨"y", "y"⟩]).Relists (named [⟨"y", "y"⟩, ⟨"x", "x"⟩]) :=
    ⟨_, .swap .., rfl⟩
  have ha : (a [_, whole]).Relists (Equiv.swap 0 1) (a [whole, _]) :=
    ⟨rel_swap_pair hnamed (hsame whole), rfl⟩
  have hb : (b [star, single]).Relists (Equiv.swap 0 1) (b [single, star]) :=
    ⟨rel_swap_pair (hsame star) (hsame single), rfl⟩
  have hp : p.Relists n p' := ⟨rel_swap_pair ha hb, rfl, rfl⟩
  have ht : t.Relists n t' := by
    refine ⟨[⟨1, 1, { chains := [one, all] }⟩, ⟨1, 0, { chains := [all, one] }⟩], ?_, .swap ..⟩
    exact .cons ⟨rfl, rfl, .swap ..⟩ (.cons ⟨rfl, rfl, .refl _⟩ .nil)
  have halike : p.SpellsAlike := by
    unfold Project.SpellsAlike
    decide +kernel
  obtain ⟨hmatches, husage⟩ := matches_classify_of_relists n p p' t t' c hp ht
  exact ⟨hp, ht, halike, by decide +kernel, by decide +kernel, by decide +kernel, hmatches,
    husage halike⟩

end Verdict
end DependencyUse
