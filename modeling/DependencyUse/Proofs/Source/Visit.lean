/-
# A visit finds each site once

A visit notes where the calls start that declarators record, and passes over every call
that starts at such an offset.  So a visit never finds more than the sites of a module.
It finds all of them if the offsets in the tree are those of a text, as in every tree that is
read (`Module.isLaidOut_of_read`): then no two loading calls start together
(`Expr.between_layout?`), and a note that one of them leaves hides no other.

Each piece of a visit is described by the sites that stand in the piece and by the offsets
at which its loading calls start (`Visits`).  Pieces are put together by `Visits.andThen`,
which asks nothing of the single pieces: what one of them notes is among its own offsets,
so it is no offset of the next one if no offset stands there twice.
-/

import DependencyUse.Import.Visit
import DependencyUse.Proofs.Source.Reading.Module
import DependencyUse.Proofs.Source.Sites
import Mathlib.Data.List.Perm.Subperm

namespace DependencyUse

/-! ## Pieces of a visit -/

/-- What a piece of a visit adds: some of the sites, or all of them if no offset stands there
twice and none is noted yet.  What it notes is among the offsets. -/
structure Visit.Adds (v after : Visit) (sites : List ImportSite) (starts : List Nat) : Prop where
  some : ∃ found, found.Sublist sites ∧ after.sites = v.sites ++ found
  all : starts.Nodup → (∀ start ∈ starts, start ∉ v.handled) → after.sites = v.sites ++ sites
  kept : ∀ start ∈ v.handled, start ∈ after.handled
  noted : ∀ start ∈ after.handled, start ∈ v.handled ∨ start ∈ starts

/-- A piece of a visit that finds the calls at `bound` noted, whatever else was found before. -/
def VisitsNoted (bound : List Nat) (piece : Visit → Visit) (sites : List ImportSite)
    (starts : List Nat) : Prop :=
  ∀ v : Visit, (∀ start ∈ bound, start ∈ v.handled) → v.Adds (piece v) sites starts

/-- A piece of a visit, whatever was found before. -/
abbrev Visits (piece : Visit → Visit) (sites : List ImportSite) (starts : List Nat) : Prop :=
  VisitsNoted [] piece sites starts

namespace VisitsNoted

variable {bound noted : List Nat} {piece next : Visit → Visit} {sites more : List ImportSite}
  {starts later : List Nat}

theorem nothing : VisitsNoted bound (fun v => v) [] [] := fun v _ =>
  ⟨⟨[], .refl _, by simp⟩, fun _ _ => by simp, fun _ h => h, fun _ h => .inl h⟩

/-- **One piece after the other.**  What the first one notes is among its own offsets, and so
hides nothing in the second one. -/
theorem seq (h : VisitsNoted bound piece sites starts) (hnext : VisitsNoted noted next more later)
    (hnoted : ∀ v : Visit, (∀ start ∈ bound, start ∈ v.handled) →
      ∀ start ∈ noted, start ∈ (piece v).handled) :
    VisitsNoted bound (fun v => next (piece v)) (sites ++ more) (starts ++ later) := by
  intro v hv
  have hfirst := h v hv
  have hsecond := hnext (piece v) (hnoted v hv)
  refine ⟨?_, fun hnodup hfresh => ?_, ?_, ?_⟩
  · obtain ⟨found, hfound, hsites⟩ := hfirst.some
    obtain ⟨found', hfound', hsites'⟩ := hsecond.some
    exact ⟨found ++ found', hfound.append hfound', by rw [hsites', hsites, List.append_assoc]⟩
  · obtain ⟨hnodup, hnodup', hdisjoint⟩ := List.nodup_append.1 hnodup
    have hfresh' : ∀ start ∈ later, start ∉ (piece v).handled := by
      intro start hstart hmem
      rcases hfirst.noted start hmem with hbefore | hown
      · exact hfresh start (List.mem_append_right _ hstart) hbefore
      · exact hdisjoint start hown start hstart rfl
    rw [hsecond.all hnodup' hfresh', ← List.append_assoc,
      hfirst.all hnodup fun start hstart => hfresh start (List.mem_append_left _ hstart)]
  · exact fun start hstart => hsecond.kept start (hfirst.kept start hstart)
  · intro start hstart
    rcases hsecond.noted start hstart with hstart | hlater
    · exact (hfirst.noted start hstart).imp_right (List.mem_append_left _)
    · exact .inr (List.mem_append_right _ hlater)

theorem andThen (h : VisitsNoted bound piece sites starts) (hnext : Visits next more later) :
    VisitsNoted bound (fun v => next (piece v)) (sites ++ more) (starts ++ later) :=
  h.seq hnext fun _ _ _ hnone => nomatch hnone

theorem perm (h : VisitsNoted bound piece sites starts) (hperm : starts.Perm later) :
    VisitsNoted bound piece sites later := by
  intro v hv
  obtain ⟨hsome, hall, hkept, hnoted⟩ := h v hv
  exact ⟨hsome, fun hnodup hfresh => hall (hperm.nodup_iff.2 hnodup)
      fun start hstart => hfresh start (hperm.mem_iff.1 hstart), hkept,
    fun start hstart => (hnoted start hstart).imp_right hperm.mem_iff.1⟩

end VisitsNoted

namespace Visit

theorem visits_record (sites : List ImportSite) : Visits (record sites) sites [] := fun _ _ =>
  ⟨⟨sites, .refl _, rfl⟩, fun _ _ => rfl, fun _ h => h, fun _ h => .inl h⟩

theorem visits_bind (site : ImportSite) : Visits (bind (some site)) [site] [site.start] := by
  refine fun v _ => ⟨⟨[site], .refl _, rfl⟩, fun _ _ => rfl, fun _ h => .tail _ h, ?_⟩
  intro start hstart
  rcases List.mem_cons.1 hstart with rfl | hstart
  · exact .inr (.head _)
  · exact .inl hstart

/-- A call that is met is recorded if it loads a module, unless one is noted there. -/
theorem visits_meet (start : Nat) (kind : ImportKind) (specifier : Option String) :
    Visits (meet start kind specifier)
      (specifier.map fun specifier =>
        (⟨start, start, specifier, kind, []⟩ : ImportSite)).toList
      ((specifier.map fun specifier => (start, kind, specifier)).toList.map Prod.fst) := by
  cases specifier with
  | none =>
    have hsame : ∀ v, meet start kind none v = v := fun v => ite_self _
    intro v hv
    rw [hsame]
    exact VisitsNoted.nothing v hv
  | some specifier =>
    intro v _
    by_cases hnoted : start ∈ v.handled
    · have hsame : meet start kind (some specifier) v = v :=
        if_pos (List.contains_iff_mem.2 hnoted)
      rw [hsame]
      exact ⟨⟨[], List.nil_sublist _, by simp⟩,
        fun _ hfresh => absurd hnoted (hfresh start (.head _)), fun _ h => h, fun _ h => .inl h⟩
    · have hrecorded : meet start kind (some specifier) v
          = { v with sites := v.sites ++ [⟨start, start, specifier, kind, []⟩] } :=
        if_neg (mt List.contains_iff_mem.1 hnoted)
      rw [hrecorded]
      exact ⟨⟨_, .refl _, rfl⟩, fun _ _ => rfl, fun _ h => h, fun _ h => .inl h⟩

/-- A call that is noted is passed over. -/
theorem visitsNoted_meet (start : Nat) (kind : ImportKind) (specifier : Option String) :
    VisitsNoted [start] (meet start kind specifier) [] [] := by
  intro v hv
  have hsame : meet start kind specifier v = v :=
    if_pos (List.contains_iff_mem.2 (hv start (.head _)))
  rw [hsame]
  exact VisitsNoted.nothing v hv

end Visit

namespace Source

/-! ## The pieces of a tree -/

/-- Where the loading call starts that an initialiser comes down to. -/
def Expr.loadStart? : Expr → Option Nat
  | .call start callee _ args => (required? callee args).map fun _ => start
  | .load start source _ => source.literal?.map fun _ => start
  | .member object _ => object.loadStart?
  | .wrapped _ inner _ => inner.loadStart?
  | .await operand => operand.loadStart?
  | _ => none

theorem Expr.loadStart?_inner (e : Expr) : e.inner.loadStart? = e.loadStart? := by
  fun_induction Expr.inner e with
  | case1 wrapper inner types ih => rw [ih, Expr.loadStart?]
  | case2 e => rfl

theorem Expr.loadStart?_loaded (e : Expr) : e.loaded.loadStart? = e.loadStart? := by
  rw [← e.loadStart?_inner, Expr.loaded]
  split
  · rename_i operand hinner
    rw [hinner, operand.loadStart?_inner, Expr.loadStart?]
  · rfl

/-- The site of a declarator starts where the call starts that initialises it. -/
theorem loadStart?_of_boundSite? {start : Nat} {target : Target} {init : Expr} {site : ImportSite}
    (h : boundSite? start target init = some site) : init.loadStart? = some site.start := by
  rw [← init.loadStart?_loaded]
  unfold boundSite? at h
  split at h
  · rename_i at_ callee types args hloaded
    obtain ⟨specifier, hspecifier, rfl⟩ := Option.map_eq_some_iff.1 h
    rw [hloaded, Expr.loadStart?, hspecifier, Option.map_some]
  · rename_i object property hloaded
    split at h
    · rename_i at_ callee types args hobject
      obtain ⟨specifier, hspecifier, rfl⟩ := Option.map_eq_some_iff.1 h
      rw [hloaded, Expr.loadStart?, ← object.loadStart?_inner, hobject, Expr.loadStart?,
        hspecifier, Option.map_some]
    · cases h
  · rename_i at_ source options hloaded
    obtain ⟨specifier, hspecifier, rfl⟩ := Option.map_eq_some_iff.1 h
    rw [hloaded, Expr.loadStart?, hspecifier, Option.map_some]
  · cases h

mutual

/-- **A visit of an expression** finds its loading calls. -/
theorem Expr.visits : ∀ e : Expr, Visits e.visit (e.sites false) (loadStarts (e.nodes true))
  | .name _ | .this | .string _ => VisitsNoted.nothing
  | .template _ values => visits_exprs values
  | .member object _ => object.visits
  | .index object key => by
    rw [Expr.nodes, loadStarts_cons, loadStarts_append]
    exact object.visits.andThen key.visits
  | .call start callee types args => by
    simp only [Expr.nodes, loadStarts_cons, loadStarts_append, if_true, ← List.append_assoc]
    exact (((Visit.visits_meet start .require (required? callee args)).andThen
      callee.visits).andThen (visits_parts types)).andThen (visits_exprs args)
  | .construct _ callee types args => by
    simp only [Expr.nodes, loadStarts_cons, loadStarts_append, if_true]
    exact (callee.visits.andThen (visits_parts types)).andThen (visits_exprs args)
  | .load start source options => by
    simp only [Expr.nodes, loadStarts_cons, loadStarts_append, ← List.append_assoc]
    exact ((Visit.visits_meet start .dynamic source.literal?).andThen source.visits).andThen
      (visits_exprs options)
  | .sequence items => visits_exprs items
  | .wrapped _ inner types => by
    rw [loadStarts_wrapped]
    exact inner.visits.andThen (visits_parts types)
  | .await operand | .spread operand => operand.visits
  | .other parts => visits_parts parts

/-- **A visit of an initialiser** whose call is noted finds the others. -/
theorem Expr.visitsNoted : ∀ (e : Expr) {start : Nat}, e.loadStart? = some start →
    ∃ others, loadStarts (e.nodes true) = start :: others ∧
      VisitsNoted [start] e.visit (e.sites true) others
  | .call start callee types args, _, h => by
    obtain ⟨specifier, hspecifier, rfl⟩ := Option.map_eq_some_iff.1 h
    refine ⟨_, ?_, (((Visit.visitsNoted_meet start .require (required? callee args)).andThen
      callee.visits).andThen (visits_parts types)).andThen (visits_exprs args)⟩
    simp only [Expr.nodes, loadStarts_cons, loadStarts_append, if_true, Expr.ownLoads, hspecifier]
    rfl
  | .load start source options, _, h => by
    obtain ⟨specifier, hspecifier, rfl⟩ := Option.map_eq_some_iff.1 h
    refine ⟨_, ?_, ((Visit.visitsNoted_meet start .dynamic source.literal?).andThen
      source.visits).andThen (visits_exprs options)⟩
    simp only [Expr.nodes, loadStarts_cons, loadStarts_append, Expr.ownLoads, hspecifier]
    rfl
  | .member object _, _, h => object.visitsNoted h
  | .wrapped _ inner types, _, h => by
    obtain ⟨others, hstarts, hvisits⟩ := inner.visitsNoted h
    refine ⟨_, ?_, hvisits.andThen (visits_parts types)⟩
    rw [loadStarts_wrapped, hstarts, List.cons_append]
  | .await operand, _, h => operand.visitsNoted h

theorem visits_exprs : ∀ es : List Expr,
    Visits (visitExprs es) (exprSites es) (loadStarts (exprNodes true es))
  | [] => VisitsNoted.nothing
  | e :: es => by
    rw [exprNodes, loadStarts_append]
    exact e.visits.andThen (visits_exprs es)

theorem Part.visits : ∀ p : Part, Visits p.visit p.sites (loadStarts (p.nodes true))
  | .expr e => e.visits
  | .types parts => visits_parts parts
  | .declarator start target parts init => by
    cases hsite : boundSite? start target init with
    | none =>
      have hvisit : (Part.declarator start target parts init).visit
          = fun v => init.visit (visitParts parts v) := by
        funext v
        rw [Part.visit, hsite]
        rfl
      have hsites : (Part.declarator start target parts init).sites
          = partSites parts ++ init.sites false := by
        simp [Part.sites, hsite]
      rw [hvisit, hsites, Part.nodes, loadStarts_append]
      exact (visits_parts parts).andThen init.visits
    | some site =>
      obtain ⟨others, hstarts, hinit⟩ := init.visitsNoted (loadStart?_of_boundSite? hsite)
      have hvisit : (Part.declarator start target parts init).visit
          = fun v => init.visit (visitParts parts (v.bind (some site))) := by
        funext v
        rw [Part.visit, hsite]
      have hsites : (Part.declarator start target parts init).sites
          = [site] ++ partSites parts ++ init.sites true := by
        simp [Part.sites, hsite]
      have hnoted : ∀ v : Visit, ∀ noted ∈ [site.start],
          noted ∈ (visitParts parts (v.bind (some site))).handled := by
        intro v noted hmem
        rw [List.mem_singleton.1 hmem]
        exact (visits_parts parts _ fun _ hnone => nomatch hnone).kept _ (.head _)
      rw [hvisit, hsites, Part.nodes, loadStarts_append, hstarts]
      exact (((Visit.visits_bind site).andThen (visits_parts parts)).seq hinit
        fun v _ => hnoted v).perm List.perm_middle.symm

theorem visits_parts : ∀ ps : List Part,
    Visits (visitParts ps) (partSites ps) (loadStarts (partNodes true ps))
  | [] => VisitsNoted.nothing
  | p :: ps => by
    rw [partNodes, loadStarts_append]
    exact p.visits.andThen (visits_parts ps)

end

theorem visits_items (head : Bool) (items : List Item) :
    Visits (visitItems head items) (itemSites head items)
      (loadStarts (items.flatMap fun item => partNodes true item.parts)) := by
  induction items generalizing head with
  | nil => exact VisitsNoted.nothing
  | cons item items ih =>
    rw [List.flatMap_cons, loadStarts_append]
    exact ((Visit.visits_record (item.declared _)).andThen (visits_parts item.parts)).andThen (ih _)

/-! ## The sites of a module -/

/-- **A visit finds nothing but the sites of a module**, and none of them twice. -/
theorem Module.subperm_visitedSites (m : Module) : m.visitedSites.Subperm m.importSites := by
  obtain ⟨found, hfound, hsites⟩ := (visits_items true m.items {} fun _ h => nomatch h).some
  have hperm : m.visitedSites.Perm found := by
    rw [Module.visitedSites, hsites]
    exact List.mergeSort_perm _ _
  exact (hperm.subperm.trans hfound.subperm).trans (List.mergeSort_perm _ _).symm.subperm

/-- **A visit finds every site** if the offsets in the tree are those of a text. -/
theorem Module.visitedSites_eq {m : Module} (h : m.isLaidOut = true) :
    m.visitedSites = m.importSites := by
  have hall := (visits_items true m.items {} fun _ h => nomatch h).all (Module.nodup_loadStarts h)
    fun _ _ hnoted => nomatch hnoted
  rw [Module.visitedSites, hall]
  rfl

/-- The sites of a visit come in the order in which they start. -/
theorem Module.pairwise_le_visitedSites (m : Module) :
    m.visitedSites.Pairwise fun a b => a.start ≤ b.start :=
  pairwise_le_mergeSort_start _

/-- **A visit records each site once, in order.**  The records of a visit are those of sites of the
module (the declarations that count and the loading calls), of none of them twice and of nothing
else, in the order in which they start; no record binds a pair of names twice.  If the offsets in
the tree are those of a text, then a note hides no other call: each site is recorded, no two of
them start together, and the records are those that the places in the tree give.  The offsets in
the tree of every text that is read are so. -/
theorem Module.visit_records_each_once (locate : Nat → Location) (m : Module) :
    (∃ sites : List ImportSite,
      m.visitedImports locate = sites.map (ImportRecord.ofSite locate) ∧
      (m.visitedImports locate).map (fun record => (record.kind, record.specifier))
        = sites.map (fun site => (site.kind, site.specifier)) ∧
      (sites.map ImportSite.load).Subperm m.loads ∧
      sites.Pairwise (fun a b => a.start ≤ b.start) ∧
      (m.isLaidOut = true →
        (sites.map ImportSite.load).Perm m.loads ∧
        sites.Pairwise (fun a b => a.start < b.start) ∧
        m.visitedImports locate = m.imports locate)) ∧
    (∀ record ∈ m.visitedImports locate, record.names.Nodup) ∧
    ∀ language text, Module.read? language text = some m → m.isLaidOut = true := by
  obtain ⟨found, hperm, hfound⟩ := m.subperm_visitedSites
  have hloads : (m.visitedSites.map ImportSite.load).Subperm (m.importSites.map ImportSite.load) :=
    ⟨_, hperm.map ImportSite.load, hfound.map ImportSite.load⟩
  refine ⟨⟨m.visitedSites, rfl, ?_, ?_, m.pairwise_le_visitedSites, fun hlaid => ?_⟩, ?_,
    fun language text => Module.isLaidOut_of_read⟩
  · simp only [Module.visitedImports, List.map_map, Function.comp_def,
      ImportRecord.kind_specifier_ofSite]
  · exact hloads.trans m.perm_loads.subperm
  · rw [Module.visitedImports, Module.visitedSites_eq hlaid]
    exact ⟨m.perm_loads, Module.pairwise_lt_importSites hlaid, rfl⟩
  · intro record hrecord
    obtain ⟨site, _, rfl⟩ := List.mem_map.1 hrecord
    exact ImportRecord.nodup_names_ofSite locate site

/-- A text where a declarator binds one call, two others start together, and an import stands after
the head. -/
def boundAndNested : String :=
  "import 'a'; const x = require('b').c; require('d').e(require('f')); " ++
    "import 'g'; export * from 'h';"

/-- Five sites, of which no two start together, and each of them is recorded. -/
theorem Module.visit_records_each_once_of_boundAndNested :
    ∃ m, Module.read? ⟨false, false, false, false⟩ boundAndNested = some m ∧
      m.isLaidOut = true ∧ m.loads.map Prod.fst = [0, 80, 22, 38, 53] ∧
      ∃ sites : List ImportSite, (sites.map ImportSite.load).Perm m.loads ∧
        sites.Pairwise fun a b => a.start < b.start := by
  have hloads : (Module.read? ⟨false, false, false, false⟩ boundAndNested).map
      (·.loads.map Prod.fst) = some [0, 80, 22, 38, 53] := by decide +kernel
  obtain ⟨m, hread, hm⟩ := Option.map_eq_some_iff.1 hloads
  obtain ⟨⟨sites, _, _, _, _, hall⟩, _, hreads⟩ :=
    Module.visit_records_each_once (fun _ => default) m
  have hlaid := hreads _ _ hread
  exact ⟨m, hread, hlaid, hm, sites, (hall hlaid).1, (hall hlaid).2.1⟩

/-- In no text can two calls of `require` start together.  If they did, the note of one would
hide the other. -/
example :
    let require (specifier : String) : Expr := .call 5 (.name "require") [] [.string specifier]
    let m : Module :=
      ⟨[.other [.declarator 0 (.name "x") [] (require "a"), .expr (require "b")]]⟩
    m.isLaidOut = false ∧ (visitItems true m.items {}).sites.length = 1 ∧ m.loads.length = 2 := by
  decide

end Source
end DependencyUse
