/-
# No two sites start together

A module is brought in by declarations and by loading calls:

| site | counts |
| --- | --- |
| `import …`, `import n = require('m')` | in the head of the module |
| `export … from 'm'`, `export * from 'm'` | everywhere at the top level |
| `require('m')`, `import('m')` | everywhere |

Calls share their start: in `require('a').b().c()` there are three that start at the same offset.
But the callee of a `require` is a name under wrappers, so nothing in it loads
a module where the call itself starts (`Expr.between_of_inner_name`), and only the innermost of
calls that start together can be a `require`.

That rests on where the pieces of a text can stand.  `Expr.layout?` goes over a tree from left to
right, gives every token at least one byte, and fails at an offset that it has passed already.  It
fails for no tree that is read (`Module.isLaidOut_of_read`).
-/

import DependencyUse.Proofs.Source.Nodes

namespace DependencyUse

/-! ## Offsets -/

/-- The offsets stand between two others, and none of them stands there twice. -/
structure Between (lo hi : Nat) (offsets : List Nat) : Prop where
  le : lo ≤ hi
  nodup : offsets.Nodup
  bounds : ∀ offset ∈ offsets, lo ≤ offset ∧ offset < hi

namespace Between

variable {lo mid hi : Nat} {xs ys : List Nat}

theorem nil (h : lo ≤ hi) : Between lo hi [] :=
  ⟨h, .nil, fun _ hx => nomatch hx⟩

theorem cons (h : Between (lo + 1) hi xs) : Between lo hi (lo :: xs) where
  le := Nat.le_of_succ_le h.le
  nodup := List.nodup_cons.2 ⟨fun hmem => Nat.lt_irrefl lo (h.bounds lo hmem).1, h.nodup⟩
  bounds := by
    intro x hx
    rcases List.mem_cons.1 hx with rfl | hx
    · exact ⟨Nat.le_refl x, h.le⟩
    · exact ⟨Nat.le_of_succ_le (h.bounds x hx).1, (h.bounds x hx).2⟩

theorem append (h : Between lo mid xs) (h' : Between mid hi ys) : Between lo hi (xs ++ ys) where
  le := Nat.le_trans h.le h'.le
  nodup := by
    refine List.nodup_append.2 ⟨h.nodup, h'.nodup, fun x hx y hy hxy => ?_⟩
    have hlt := (h.bounds x hx).2
    have hle := (h'.bounds y hy).1
    omega
  bounds := by
    intro x hx
    rcases List.mem_append.1 hx with hx | hx
    · exact ⟨(h.bounds x hx).1, Nat.lt_of_lt_of_le (h.bounds x hx).2 h'.le⟩
    · exact ⟨Nat.le_trans h.le (h'.bounds x hx).1, (h'.bounds x hx).2⟩

theorem perm (h : Between lo hi xs) (hperm : xs.Perm ys) : Between lo hi ys where
  le := h.le
  nodup := hperm.nodup_iff.1 h.nodup
  bounds x hx := h.bounds x (hperm.mem_iff.2 hx)

theorem mono {lo' : Nat} (h : Between lo hi xs) (hlo : lo' ≤ lo) : Between lo' hi xs where
  le := Nat.le_trans hlo h.le
  nodup := h.nodup
  bounds x hx := ⟨Nat.le_trans hlo (h.bounds x hx).1, (h.bounds x hx).2⟩

end Between

namespace Source

/-! ## Where the pieces of a tree can stand -/

/-- The offset `start`, unless `lo` is after it. -/
def reach? (lo start : Nat) : Option Nat :=
  if lo ≤ start then some start else none

theorem reach?_eq_some_iff {lo start mid : Nat} :
    reach? lo start = some mid ↔ lo ≤ start ∧ start = mid := by
  simp [reach?]

mutual

/-- The least offset after an expression that stands at `lo` or later; none if an offset in it is
too small for that. -/
def Expr.layout? : Expr → Nat → Option Nat
  | .name _, lo | .this, lo | .string _, lo => some (lo + 1)
  | .template _ values, lo => layoutExprs? values (lo + 1)
  | .member object _, lo => object.layout? lo
  | .index object key, lo => (object.layout? lo).bind key.layout?
  | .call start callee types args, lo =>
    (reach? lo start).bind fun lo => (callee.layout? lo).bind fun lo =>
      (layoutParts? types lo).bind (layoutExprs? args)
  | .construct start callee types args, lo =>
    (reach? lo start).bind fun lo => (callee.layout? (lo + 1)).bind fun lo =>
      (layoutParts? types lo).bind (layoutExprs? args)
  | .load start source options, lo =>
    (reach? lo start).bind fun lo => (source.layout? (lo + 1)).bind (layoutExprs? options)
  | .sequence items, lo => layoutExprs? items lo
  | .wrapped .assertion inner types, lo => (layoutParts? types (lo + 1)).bind inner.layout?
  | .wrapped _ inner types, lo => (inner.layout? lo).bind (layoutParts? types)
  | .await operand, lo | .spread operand, lo => operand.layout? (lo + 1)
  | .other parts, lo => layoutParts? parts lo

def layoutExprs? : List Expr → Nat → Option Nat
  | [], lo => some lo
  | e :: es, lo => (e.layout? lo).bind (layoutExprs? es)

def Part.layout? : Part → Nat → Option Nat
  | .expr e, lo => e.layout? lo
  | .types parts, lo => layoutParts? parts lo
  | .declarator start _ parts init, lo =>
    (reach? lo start).bind fun lo => (layoutParts? parts lo).bind init.layout?

def layoutParts? : List Part → Nat → Option Nat
  | [], lo => some lo
  | p :: ps, lo => (p.layout? lo).bind (layoutParts? ps)

end

/-- The same for a top-level statement. -/
def Item.layout? : Item → Nat → Option Nat
  | .importNames start _ _ _, lo | .importRequire start _ _ _, lo | .reexport start _ _ _, lo
  | .reexportAll start _ _ _, lo => (reach? lo start).map (· + 1)
  | .importAlias _, lo => some (lo + 1)
  | .other parts, lo => layoutParts? parts lo

def layoutItems? : List Item → Nat → Option Nat
  | [], lo => some lo
  | item :: items, lo => (item.layout? lo).bind (layoutItems? items)

/-- The offsets in a module can be those of a text: they come in the order of the tree, and every
token between them has room. -/
def Module.isLaidOut (m : Module) : Bool :=
  (layoutItems? m.items 0).isSome

/-! ## No two loads start together -/

/-- Where the loads of some nodes start. -/
def loadStarts (nodes : List Expr) : List Nat :=
  (nodes.flatMap Expr.ownLoads).map Prod.fst

theorem loadStarts_append (xs ys : List Expr) :
    loadStarts (xs ++ ys) = loadStarts xs ++ loadStarts ys := by
  simp only [loadStarts, List.flatMap_append, List.map_append]

theorem loadStarts_cons (e : Expr) (es : List Expr) :
    loadStarts (e :: es) = e.ownLoads.map Prod.fst ++ loadStarts es := by
  simp only [loadStarts, List.flatMap_cons, List.map_append]

/-- A call that loads a module, before what loads modules after its start. -/
theorem between_load {start hi : Nat} {kind : ImportKind} {xs : List Nat} (literal : Option String)
    (hsome : literal.isSome = true → Between (start + 1) hi xs) (hxs : Between start hi xs) :
    Between start hi
      ((literal.map fun specifier => (start, kind, specifier)).toList.map Prod.fst ++ xs) := by
  cases literal with
  | none => exact hxs
  | some specifier => exact (hsome rfl).cons

theorem inner_of_required? {callee : Expr} {args : List Expr}
    (h : (required? callee args).isSome = true) : callee.inner = .name "require" := by
  unfold required? at h
  split at h
  · assumption
  · cases h

theorem loadStarts_wrapped (wrapper : Wrapper) (inner : Expr) (types : List Part) :
    loadStarts ((Expr.wrapped wrapper inner types).nodes true)
      = loadStarts (inner.nodes true) ++ loadStarts (partNodes true types) := by
  rw [Expr.nodes, loadStarts_cons, loadStarts_append]
  rfl

/-- The types of a wrapper stand after a first token or after the expression. -/
theorem exists_of_layout?_wrapped {wrapper : Wrapper} {inner : Expr} {types : List Part}
    {lo hi : Nat} (h : (Expr.wrapped wrapper inner types).layout? lo = some hi) :
    (∃ mid, layoutParts? types (lo + 1) = some mid ∧ inner.layout? mid = some hi) ∨
      ∃ mid, inner.layout? lo = some mid ∧ layoutParts? types mid = some hi := by
  cases wrapper with
  | assertion => exact .inl (Option.bind_eq_some_iff.1 h)
  | _ => exact .inr (Option.bind_eq_some_iff.1 h)

mutual

/-- **The loads in an expression start between its ends, each for itself.** -/
theorem Expr.between_layout? : ∀ (e : Expr) {lo hi : Nat}, e.layout? lo = some hi →
    Between lo hi (loadStarts (e.nodes true))
  | .name _, lo, _, h | .this, lo, _, h | .string _, lo, _, h => by
    cases h
    exact .nil (Nat.le_succ lo)
  | .template _ values, lo, _, h => (between_layoutExprs? values h).mono (Nat.le_succ lo)
  | .member object _, _, _, h => object.between_layout? h
  | .index object key, _, _, h => by
    obtain ⟨mid, hobject, hkey⟩ := Option.bind_eq_some_iff.1 h
    rw [Expr.nodes, loadStarts_cons, loadStarts_append]
    exact (object.between_layout? hobject).append (key.between_layout? hkey)
  | .call start callee types args, _, hi, h => by
    obtain ⟨_, hstart, h⟩ := Option.bind_eq_some_iff.1 h
    obtain ⟨mid, hcallee, h⟩ := Option.bind_eq_some_iff.1 h
    obtain ⟨mid', htypes, hargs⟩ := Option.bind_eq_some_iff.1 h
    obtain ⟨hlo, rfl⟩ := reach?_eq_some_iff.1 hstart
    have hrest : Between mid hi
        (loadStarts (partNodes true types) ++ loadStarts (exprNodes true args)) :=
      (between_layoutParts? types htypes).append (between_layoutExprs? args hargs)
    simp only [Expr.nodes, loadStarts_cons, loadStarts_append, if_true, List.append_assoc]
    refine Between.mono (between_load _ (fun hrequire => ?_) ?_) hlo
    · exact (callee.between_of_inner_name (inner_of_required? hrequire) hcallee).append hrest
    · exact (callee.between_layout? hcallee).append hrest
  | .construct start callee types args, _, hi, h => by
    obtain ⟨_, hstart, h⟩ := Option.bind_eq_some_iff.1 h
    obtain ⟨mid, hcallee, h⟩ := Option.bind_eq_some_iff.1 h
    obtain ⟨mid', htypes, hargs⟩ := Option.bind_eq_some_iff.1 h
    obtain ⟨hlo, rfl⟩ := reach?_eq_some_iff.1 hstart
    simp only [Expr.nodes, loadStarts_cons, loadStarts_append, if_true]
    exact (((callee.between_layout? hcallee).append (between_layoutParts? types htypes)).append
      (between_layoutExprs? args hargs)).mono (Nat.le_succ_of_le hlo)
  | .load start source options, _, hi, h => by
    obtain ⟨_, hstart, h⟩ := Option.bind_eq_some_iff.1 h
    obtain ⟨mid, hsource, hoptions⟩ := Option.bind_eq_some_iff.1 h
    obtain ⟨hlo, rfl⟩ := reach?_eq_some_iff.1 hstart
    have hrest : Between (start + 1) hi
        (loadStarts (source.nodes true) ++ loadStarts (exprNodes true options)) :=
      (source.between_layout? hsource).append (between_layoutExprs? options hoptions)
    rw [Expr.nodes, loadStarts_cons, loadStarts_append]
    exact (between_load _ (fun _ => hrest) (hrest.mono (Nat.le_succ start))).mono hlo
  | .sequence items, _, _, h => between_layoutExprs? items h
  | .wrapped wrapper inner types, lo, hi, h => by
    rw [loadStarts_wrapped]
    rcases exists_of_layout?_wrapped h with ⟨mid, htypes, hinner⟩ | ⟨mid, hinner, htypes⟩
    · exact (((between_layoutParts? types htypes).append (inner.between_layout? hinner)).perm
        List.perm_append_comm).mono (Nat.le_succ lo)
    · exact (inner.between_layout? hinner).append (between_layoutParts? types htypes)
  | .await operand, lo, _, h | .spread operand, lo, _, h =>
    (operand.between_layout? h).mono (Nat.le_succ lo)
  | .other parts, _, _, h => between_layoutParts? parts h

/-- **In a name under wrappers, no load starts at its beginning.** -/
theorem Expr.between_of_inner_name : ∀ (e : Expr) {id : String} {lo hi : Nat},
    e.inner = .name id → e.layout? lo = some hi → Between (lo + 1) hi (loadStarts (e.nodes true))
  | .name _, _, lo, _, _, h => by
    cases h
    exact .nil (Nat.le_refl _)
  | .wrapped wrapper inner types, _, lo, hi, hid, h => by
    rw [loadStarts_wrapped]
    rcases exists_of_layout?_wrapped h with ⟨mid, htypes, hinner⟩ | ⟨mid, hinner, htypes⟩
    · exact ((between_layoutParts? types htypes).append (inner.between_layout? hinner)).perm
        List.perm_append_comm
    · exact (inner.between_of_inner_name hid hinner).append (between_layoutParts? types htypes)
  | .this, _, _, _, hid, _ | .string _, _, _, _, hid, _ | .template _ _, _, _, _, hid, _
  | .member _ _, _, _, _, hid, _ | .index _ _, _, _, _, hid, _ | .call _ _ _ _, _, _, _, hid, _
  | .construct _ _ _ _, _, _, _, hid, _ | .load _ _ _, _, _, _, hid, _
  | .sequence _, _, _, _, hid, _ | .await _, _, _, _, hid, _ | .spread _, _, _, _, hid, _
  | .other _, _, _, _, hid, _ => nomatch hid

theorem between_layoutExprs? : ∀ (es : List Expr) {lo hi : Nat}, layoutExprs? es lo = some hi →
    Between lo hi (loadStarts (exprNodes true es))
  | [], _, _, h => by
    cases h
    exact .nil (Nat.le_refl _)
  | e :: es, _, _, h => by
    obtain ⟨mid, he, hes⟩ := Option.bind_eq_some_iff.1 h
    rw [exprNodes, loadStarts_append]
    exact (e.between_layout? he).append (between_layoutExprs? es hes)

theorem Part.between_layout? : ∀ (p : Part) {lo hi : Nat}, p.layout? lo = some hi →
    Between lo hi (loadStarts (p.nodes true))
  | .expr e, _, _, h => e.between_layout? h
  | .types parts, _, _, h => between_layoutParts? parts h
  | .declarator start _ parts init, _, _, h => by
    obtain ⟨_, hstart, h⟩ := Option.bind_eq_some_iff.1 h
    obtain ⟨mid, hparts, hinit⟩ := Option.bind_eq_some_iff.1 h
    obtain ⟨hlo, rfl⟩ := reach?_eq_some_iff.1 hstart
    rw [Part.nodes, loadStarts_append]
    exact ((between_layoutParts? parts hparts).append (init.between_layout? hinit)).mono hlo

theorem between_layoutParts? : ∀ (ps : List Part) {lo hi : Nat}, layoutParts? ps lo = some hi →
    Between lo hi (loadStarts (partNodes true ps))
  | [], _, _, h => by
    cases h
    exact .nil (Nat.le_refl _)
  | p :: ps, _, _, h => by
    obtain ⟨mid, hp, hps⟩ := Option.bind_eq_some_iff.1 h
    rw [partNodes, loadStarts_append]
    exact (p.between_layout? hp).append (between_layoutParts? ps hps)

end

theorem importSite_start (start : Nat) (specifier : String) (typeOnly : Bool)
    (names : List ImportName) : (importSite start specifier typeOnly names).start = start := by
  unfold importSite
  dsimp only
  repeat' split
  all_goals rfl

/-- A declaration is one site or none, and holds no calls. -/
theorem between_declared {lo mid start : Nat} {sites : List ImportSite}
    (h : (reach? lo start).map (· + 1) = some mid)
    (hsites : sites.map ImportSite.start = [start] ∨ sites = []) :
    Between lo mid ((sites ++ partSites []).map ImportSite.start) := by
  obtain ⟨_, hstart, rfl⟩ := Option.map_eq_some_iff.1 h
  obtain ⟨hlo, rfl⟩ := reach?_eq_some_iff.1 hstart
  rw [partSites, List.append_nil]
  rcases hsites with hsites | rfl
  · rw [hsites]
    exact (Between.cons (.nil (Nat.le_refl _))).mono hlo
  · exact .nil (Nat.le_succ_of_le hlo)

/-- The calls of a statement start where its nodes load modules. -/
theorem between_partSites {ps : List Part} {lo hi : Nat} (h : layoutParts? ps lo = some hi) :
    Between lo hi ((partSites ps).map ImportSite.start) := by
  have hperm := (perm_partSites ps).map Prod.fst
  rw [List.map_map] at hperm
  exact (between_layoutParts? ps h).perm hperm.symm

theorem Item.between_layout? (item : Item) (head : Bool) {lo mid : Nat}
    (h : item.layout? lo = some mid) :
    Between lo mid ((item.declared head ++ partSites item.parts).map ImportSite.start) := by
  cases item with
  | other parts => exact between_partSites h
  | importAlias root => exact between_partSites h
  | importNames start specifier typeOnly names =>
    refine between_declared h ?_
    cases head with
    | false => exact .inr rfl
    | true => exact .inl (congrArg (· :: []) (importSite_start start specifier typeOnly names))
  | importRequire start specifier typeOnly name =>
    refine between_declared h ?_
    cases head with
    | false => exact .inr rfl
    | true => exact .inl rfl
  | reexport start specifier typeOnly names => exact between_declared h (.inl rfl)
  | reexportAll start specifier typeOnly name => exact between_declared h (.inl rfl)

theorem between_itemSites {items : List Item} {lo hi : Nat} (head : Bool)
    (h : layoutItems? items lo = some hi) :
    Between lo hi ((itemSites head items).map ImportSite.start) := by
  induction items generalizing lo head with
  | nil =>
    cases h
    exact .nil (Nat.le_refl _)
  | cons item items ih =>
    obtain ⟨mid, hitem, hitems⟩ := Option.bind_eq_some_iff.1 h
    rw [itemSites, List.map_append]
    exact (item.between_layout? _ hitem).append (ih _ hitems)

/-! ## The sites of a module -/

/-- `import … from 'm'` and `import n = require('m')` -/
def Item.isImport : Item → Bool
  | .importNames .. | .importRequire .. => true
  | _ => false

/-- `export … from 'm'` and `export * from 'm'` -/
def Item.isReexport : Item → Bool
  | .reexport .. | .reexportAll .. => true
  | _ => false

/-- What a declaration brings in: where it starts, how, and what. -/
def Item.load? : Item → Option (Nat × ImportKind × String)
  | .importNames start specifier typeOnly names =>
    some (importSite start specifier typeOnly names).load
  | .importRequire start specifier typeOnly _ =>
    some (start, if typeOnly then .typeOnly else .require, specifier)
  | .reexport start specifier typeOnly names =>
    some (reexportSite start specifier typeOnly names).load
  | .reexportAll start specifier typeOnly _ =>
    some (start, if typeOnly then .typeOnly else .reexportAll, specifier)
  | .importAlias _ | .other _ => none

/-- The declarations that count: imports in the head of the module, re-exports everywhere. -/
def Module.declarations (m : Module) : List Item :=
  (m.items.takeWhile Item.keepsHead).filter Item.isImport ++ m.items.filter Item.isReexport

/-- The sites of a module: the declarations that count, and the calls anywhere in it that load a
module which a literal names. -/
def Module.loads (m : Module) : List (Nat × ImportKind × String) :=
  m.declarations.filterMap Item.load? ++ (m.nodes true).flatMap Expr.ownLoads

theorem map_load_declaredSites_false (items : List Item) :
    (declaredSites false items).map ImportSite.load
      = (items.filter Item.isReexport).filterMap Item.load? := by
  induction items with
  | nil => rfl
  | cons item items ih =>
    rw [declaredSites, List.map_append, Bool.false_and, ih]
    cases item <;> rfl

/-- **The declarations that are recorded are those that count.** -/
theorem perm_declaredSites (items : List Item) :
    ((declaredSites true items).map ImportSite.load).Perm
      (List.filterMap Item.load? ((items.takeWhile Item.keepsHead).filter Item.isImport
        ++ items.filter Item.isReexport)) := by
  induction items with
  | nil => exact .nil
  | cons item items ih =>
    rw [declaredSites, List.map_append, Bool.true_and]
    rw [List.filterMap_append] at ih ⊢
    cases item with
    | other parts =>
      -- the head of the module ends here
      exact .of_eq (map_load_declaredSites_false items)
    | importAlias root => exact ih
    | importNames start specifier typeOnly names => exact ih.cons _
    | importRequire start specifier typeOnly name => exact ih.cons _
    | reexport start specifier typeOnly names => exact (ih.cons _).trans List.perm_middle.symm
    | reexportAll start specifier typeOnly name => exact (ih.cons _).trans List.perm_middle.symm

end Source

/-! ## Records -/

namespace ImportRecord

/-- A pair of names is bound once, and nothing else of the record changes. -/
theorem bind_keeps {r : ImportRecord} (name : BoundName) (h : r.names.Nodup) :
    ((r.bind name).kind = r.kind ∧ (r.bind name).specifier = r.specifier) ∧
      (r.bind name).names.Nodup := by
  unfold bind
  split
  · exact ⟨⟨rfl, rfl⟩, h⟩
  · rename_i hnew
    rw [List.contains_iff_mem] at hnew
    have hname : [name].Nodup := List.nodup_cons.2 ⟨List.not_mem_nil, List.nodup_nil⟩
    refine ⟨⟨rfl, rfl⟩, List.nodup_append.2 ⟨h, hname, ?_⟩⟩
    rintro x hx y hy rfl
    exact hnew (List.mem_singleton.1 hy ▸ hx)

theorem bindAll_keeps {r : ImportRecord} (names : List BoundName) (h : r.names.Nodup) :
    ((r.bindAll names).kind = r.kind ∧ (r.bindAll names).specifier = r.specifier) ∧
      (r.bindAll names).names.Nodup := by
  induction names generalizing r with
  | nil => exact ⟨⟨rfl, rfl⟩, h⟩
  | cons name names ih =>
    obtain ⟨⟨hkind, hspecifier⟩, hnodup⟩ := bind_keeps name h
    obtain ⟨⟨hkind', hspecifier'⟩, hnodup'⟩ := ih hnodup
    exact ⟨⟨hkind'.trans hkind, hspecifier'.trans hspecifier⟩, hnodup'⟩

/-- The record of a site is of its kind and names what it loads. -/
theorem kind_specifier_ofSite (locate : Nat → Location) (site : ImportSite) :
    ((ofSite locate site).kind, (ofSite locate site).specifier) = (site.kind, site.specifier) :=
  Prod.ext_iff.2 (bindAll_keeps site.names List.nodup_nil).1

theorem nodup_names_ofSite (locate : Nat → Location) (site : ImportSite) :
    (ofSite locate site).names.Nodup :=
  (bindAll_keeps site.names List.nodup_nil).2

end ImportRecord

namespace Source

/-- Sites are sorted by where they start. -/
theorem pairwise_le_mergeSort_start (sites : List ImportSite) :
    (sites.mergeSort fun a b => a.start ≤ b.start).Pairwise fun a b => a.start ≤ b.start := by
  refine (List.pairwise_mergeSort ?_ ?_ sites).imp of_decide_eq_true
  · intro a b c hab hbc
    exact decide_eq_true (Nat.le_trans (of_decide_eq_true hab) (of_decide_eq_true hbc))
  · intro a b
    simpa using Nat.le_total a.start b.start

/-- The sites come in the order in which they start. -/
theorem Module.pairwise_le_importSites (m : Module) :
    m.importSites.Pairwise fun a b => a.start ≤ b.start :=
  pairwise_le_mergeSort_start _

/-- **No two sites start together.** -/
theorem Module.pairwise_lt_importSites {m : Module} (h : m.isLaidOut = true) :
    m.importSites.Pairwise fun a b => a.start < b.start := by
  obtain ⟨hi, hlayout⟩ := Option.isSome_iff_exists.1 h
  have hperm : m.importSites.Perm (itemSites true m.items) := List.mergeSort_perm _ _
  have hnodup := ((between_itemSites true hlayout).perm (hperm.map ImportSite.start).symm).nodup
  refine (m.pairwise_le_importSites.and (List.pairwise_map.1 hnodup)).imp ?_
  rintro a b ⟨hle, hne⟩
  exact Nat.lt_of_le_of_ne hle hne

/-- **The sites of a module are its declarations that count and its loading calls.** -/
theorem Module.perm_loads (m : Module) : (m.importSites.map ImportSite.load).Perm m.loads :=
  m.perm_importSites.trans ((perm_declaredSites m.items).append_right _)

/-- **No two loading calls start together.** -/
theorem Module.nodup_loadStarts {m : Module} (h : m.isLaidOut = true) :
    (loadStarts (m.nodes true)).Nodup := by
  obtain ⟨hi, hlayout⟩ := Option.isSome_iff_exists.1 h
  have hperm := (perm_itemSites true m.items).map Prod.fst
  rw [List.map_map, List.map_append] at hperm
  exact (List.nodup_append.1 ((between_itemSites true hlayout).perm hperm).nodup).2.1

end Source
end DependencyUse
