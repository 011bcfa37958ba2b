/-
# The nodes of a tree

Two walks go over the tree of a module.  One looks for uses and passes over what stands
in types; the other looks for loading calls and goes everywhere.  Both are sums over
nodes:

| walk | nodes | what a node gives by itself |
| --- | --- | --- |
| `Module.uses` | `nodes false`, in order | `Expr.ownUses` |
| `Module.importSites` | `nodes true`, up to order | `Expr.ownLoads` |

The second sum holds up to order because a declarator records the call that initialises
it before anything in its pattern.  That call is left out where it stands, so each node
still counts once (`sites_eq_cons_of_boundSite?`).
-/

import DependencyUse.CallGraph.Use
import DependencyUse.Import.Site

namespace DependencyUse
namespace Source

mutual

/-- The nodes of an expression, itself first; with `types`, also those in type
positions. -/
def Expr.nodes (types : Bool) : Expr → List Expr
  | .name id => [.name id]
  | .this => [.this]
  | .string value => [.string value]
  | .template text values => .template text values :: exprNodes types values
  | .member object property => .member object property :: object.nodes types
  | .index object key => .index object key :: (object.nodes types ++ key.nodes types)
  | .call start callee parts args =>
    .call start callee parts args ::
      (callee.nodes types ++ (if types then partNodes types parts else []) ++ exprNodes types args)
  | .construct start callee parts args =>
    .construct start callee parts args ::
      (callee.nodes types ++ (if types then partNodes types parts else []) ++ exprNodes types args)
  | .load start source options =>
    .load start source options :: (source.nodes types ++ exprNodes types options)
  | .sequence items => .sequence items :: exprNodes types items
  | .wrapped wrapper inner parts =>
    .wrapped wrapper inner parts ::
      (inner.nodes types ++ if types then partNodes types parts else [])
  | .await operand => .await operand :: operand.nodes types
  | .spread operand => .spread operand :: operand.nodes types
  | .other parts => .other parts :: partNodes types parts

/-- The nodes of some expressions. -/
def exprNodes (types : Bool) : List Expr → List Expr
  | [] => []
  | e :: es => e.nodes types ++ exprNodes types es

/-- The nodes of a part. -/
def Part.nodes (types : Bool) : Part → List Expr
  | .expr e => e.nodes types
  | .types parts => if types then partNodes types parts else []
  | .declarator _ _ parts init => partNodes types parts ++ init.nodes types

/-- The nodes of some parts. -/
def partNodes (types : Bool) : List Part → List Expr
  | [] => []
  | p :: ps => p.nodes types ++ partNodes types ps

end

/-- The nodes of a module. -/
def Module.nodes (types : Bool) (m : Module) : List Expr :=
  m.items.flatMap fun item => partNodes types item.parts

/-- The name of a node, if it has one, has no dot in it. -/
def Expr.isUndotted : Expr → Bool
  | .name id => !id.toList.contains '.'
  | .member _ property => !property.toList.contains '.'
  | _ => true

/-- No name in a module has a dot in it. -/
def Module.IsUndotted (m : Module) : Prop :=
  ∀ e ∈ m.nodes false, e.isUndotted = true

/-- What a node uses by itself. -/
def Expr.ownUses : Expr → List Use
  | .name id => [.mention id]
  | .member object property =>
    (object.dotted?.map fun path => Use.mention (path ++ "." ++ property)).toList
  | .call start callee _ args => callee.calleeUses start args
  | .construct start callee _ _ => constructUses start callee
  | .load start source _ =>
    if source.literal?.isNone then
      [.dynamic .computedImport start "import() with a computed module name"] else []
  | _ => []

/-- What a plain call makes at run time is nothing but that. -/
theorem exists_dynamic_of_mem_plainDynamic {name : String} {start : Nat} {args : List Expr}
    {use : Use} (h : use ∈ plainDynamic name start args) :
    ∃ kind at_ context, use = .dynamic kind at_ context := by
  unfold plainDynamic at h
  repeat' split at h
  all_goals first
    | exact ⟨_, _, _, List.mem_singleton.1 h⟩
    | cases h

mutual

theorem Expr.uses_eq_flatMap_nodes : ∀ e : Expr, e.uses = (e.nodes false).flatMap Expr.ownUses
  | .name _ => rfl
  | .this => rfl
  | .string _ => rfl
  | .template _ values => by
    simp [Expr.uses, Expr.nodes, Expr.ownUses, exprUses_eq_flatMap_nodes values]
  | .member object _ => by
    simp [Expr.uses, Expr.nodes, Expr.ownUses, object.uses_eq_flatMap_nodes]
  | .index object key => by
    simp [Expr.uses, Expr.nodes, Expr.ownUses, object.uses_eq_flatMap_nodes,
      key.uses_eq_flatMap_nodes]
  | .call _ callee _ args => by
    simp [Expr.uses, Expr.nodes, Expr.ownUses, callee.uses_eq_flatMap_nodes,
      exprUses_eq_flatMap_nodes args]
  | .construct _ callee _ args => by
    simp [Expr.uses, Expr.nodes, Expr.ownUses, callee.uses_eq_flatMap_nodes,
      exprUses_eq_flatMap_nodes args]
  | .load _ source options => by
    simp [Expr.uses, Expr.nodes, Expr.ownUses, source.uses_eq_flatMap_nodes,
      exprUses_eq_flatMap_nodes options]
  | .sequence items => by
    simp [Expr.uses, Expr.nodes, Expr.ownUses, exprUses_eq_flatMap_nodes items]
  | .wrapped _ inner _ => by
    simp [Expr.uses, Expr.nodes, Expr.ownUses, inner.uses_eq_flatMap_nodes]
  | .await operand => by
    simp [Expr.uses, Expr.nodes, Expr.ownUses, operand.uses_eq_flatMap_nodes]
  | .spread operand => by
    simp [Expr.uses, Expr.nodes, Expr.ownUses, operand.uses_eq_flatMap_nodes]
  | .other parts => by
    simp [Expr.uses, Expr.nodes, Expr.ownUses, partUses_eq_flatMap_nodes parts]

theorem exprUses_eq_flatMap_nodes : ∀ es : List Expr,
    exprUses es = (exprNodes false es).flatMap Expr.ownUses
  | [] => rfl
  | e :: es => by
    simp [exprUses, exprNodes, e.uses_eq_flatMap_nodes, exprUses_eq_flatMap_nodes es]

theorem Part.uses_eq_flatMap_nodes : ∀ p : Part, p.uses = (p.nodes false).flatMap Expr.ownUses
  | .expr e => by simp [Part.uses, Part.nodes, e.uses_eq_flatMap_nodes]
  | .types _ => by simp [Part.uses, Part.nodes]
  | .declarator _ _ parts init => by
    simp [Part.uses, Part.nodes, partUses_eq_flatMap_nodes parts, init.uses_eq_flatMap_nodes]

theorem partUses_eq_flatMap_nodes : ∀ ps : List Part,
    partUses ps = (partNodes false ps).flatMap Expr.ownUses
  | [] => rfl
  | p :: ps => by
    simp [partUses, partNodes, p.uses_eq_flatMap_nodes, partUses_eq_flatMap_nodes ps]

end

/-- **The uses of a module are the uses of its nodes** outside types, in order. -/
theorem Module.uses_eq_flatMap_nodes (m : Module) :
    m.uses = (m.nodes false).flatMap Expr.ownUses := by
  simp only [Module.uses, Module.nodes, List.flatMap_assoc, partUses_eq_flatMap_nodes]

end Source

/-- The load that a site stands for: where it starts, how it loads, and what. -/
def ImportSite.load (site : ImportSite) : Nat × ImportKind × String :=
  (site.start, site.kind, site.specifier)

namespace Source

/-- What a node loads by itself, if a literal says what. -/
def Expr.ownLoads : Expr → List (Nat × ImportKind × String)
  | .call start callee _ args =>
    ((required? callee args).map fun specifier => (start, .require, specifier)).toList
  | .load start source _ =>
    (source.literal?.map fun specifier => (start, .dynamic, specifier)).toList
  | _ => []

/-- The loading calls under wrappers are those of the expression and of the wrappers. -/
theorem Expr.exists_sites_inner (e : Expr) :
    ∃ more, ∀ bound, e.sites bound = e.inner.sites bound ++ more := by
  fun_induction Expr.inner e with
  | case1 wrapper inner types ih =>
    obtain ⟨more, hmore⟩ := ih
    exact ⟨more ++ partSites types, fun bound => by
      rw [Expr.sites, hmore, List.append_assoc]⟩
  | case2 e => exact ⟨[], fun bound => by simp⟩

/-- The same under wrappers and one `await`. -/
theorem Expr.exists_sites_loaded (e : Expr) :
    ∃ more, ∀ bound, e.sites bound = e.loaded.sites bound ++ more := by
  obtain ⟨more, hmore⟩ := e.exists_sites_inner
  unfold Expr.loaded
  split
  · rename_i operand hinner
    obtain ⟨rest, hrest⟩ := operand.exists_sites_inner
    refine ⟨rest ++ more, fun bound => ?_⟩
    rw [hmore, hinner, Expr.sites, hrest, List.append_assoc]
  · exact ⟨more, hmore⟩

/-- A `require` of a literal records one site, unless it is recorded already. -/
theorem Expr.sites_call {start : Nat} {callee : Expr} {types : List Part} {args : List Expr}
    {specifier : String} (h : required? callee args = some specifier) :
    (Expr.call start callee types args).sites false =
      ⟨start, start, specifier, .require, []⟩ ::
        (Expr.call start callee types args).sites true := by
  simp [Expr.sites, h]

/-- An `import()` of a literal records one site, unless it is recorded already. -/
theorem Expr.sites_load {start : Nat} {source : Expr} {options : List Expr} {specifier : String}
    (h : source.literal? = some specifier) :
    (Expr.load start source options).sites false =
      ⟨start, start, specifier, .dynamic, []⟩ ::
        (Expr.load start source options).sites true := by
  simp [Expr.sites, h]

/-- **A call that a declarator records is left out where it stands**, and nothing else
is. -/
theorem sites_eq_cons_of_boundSite? {start : Nat} {target : Target} {init : Expr}
    {site : ImportSite} (h : boundSite? start target init = some site) :
    init.sites false = { site with shown := site.start, names := [] } :: init.sites true := by
  obtain ⟨more, hmore⟩ := init.exists_sites_loaded
  rw [hmore, hmore]
  unfold boundSite? at h
  split at h
  · rename_i at_ callee types args hloaded
    obtain ⟨specifier, hspecifier, rfl⟩ := Option.map_eq_some_iff.1 h
    rw [hloaded, Expr.sites_call hspecifier]
    rfl
  · rename_i object property hloaded
    obtain ⟨rest, hrest⟩ := object.exists_sites_inner
    split at h
    · rename_i at_ callee types args hobject
      obtain ⟨specifier, hspecifier, rfl⟩ := Option.map_eq_some_iff.1 h
      rw [hloaded, Expr.sites, Expr.sites, hrest, hrest, hobject, Expr.sites_call hspecifier]
      rfl
    · cases h
  · rename_i at_ source options hloaded
    obtain ⟨specifier, hspecifier, rfl⟩ := Option.map_eq_some_iff.1 h
    rw [hloaded, Expr.sites_load hspecifier]
    rfl
  · cases h

/-- The load of the site of a call is what the call loads. -/
theorem map_load_toList (literal : Option String) (start : Nat) (kind : ImportKind) :
    (literal.map fun specifier => (⟨start, start, specifier, kind, []⟩ : ImportSite)).toList.map
        ImportSite.load
      = (literal.map fun specifier => (start, kind, specifier)).toList := by
  cases literal <;> rfl

mutual

theorem Expr.perm_sites : ∀ e : Expr,
    ((e.sites false).map ImportSite.load).Perm ((e.nodes true).flatMap Expr.ownLoads)
  | .name _ => .nil
  | .this => .nil
  | .string _ => .nil
  | .template _ values => by
    simpa [Expr.sites, Expr.nodes, Expr.ownLoads] using perm_exprSites values
  | .member object _ => by
    simpa [Expr.sites, Expr.nodes, Expr.ownLoads] using object.perm_sites
  | .index object key => by
    simpa [Expr.sites, Expr.nodes, Expr.ownLoads] using object.perm_sites.append key.perm_sites
  | .call start callee types args => by
    simpa [Expr.sites, Expr.nodes, Expr.ownLoads, map_load_toList] using
      ((callee.perm_sites.append (perm_partSites types)).append (perm_exprSites args)).append_left _
  | .construct _ callee types args => by
    simpa [Expr.sites, Expr.nodes, Expr.ownLoads] using
      (callee.perm_sites.append (perm_partSites types)).append (perm_exprSites args)
  | .load start source options => by
    simpa [Expr.sites, Expr.nodes, Expr.ownLoads, map_load_toList] using
      (source.perm_sites.append (perm_exprSites options)).append_left _
  | .sequence items => by
    simpa [Expr.sites, Expr.nodes, Expr.ownLoads] using perm_exprSites items
  | .wrapped _ inner types => by
    simpa [Expr.sites, Expr.nodes, Expr.ownLoads] using
      inner.perm_sites.append (perm_partSites types)
  | .await operand => by
    simpa [Expr.sites, Expr.nodes, Expr.ownLoads] using operand.perm_sites
  | .spread operand => by
    simpa [Expr.sites, Expr.nodes, Expr.ownLoads] using operand.perm_sites
  | .other parts => by
    simpa [Expr.sites, Expr.nodes, Expr.ownLoads] using perm_partSites parts

theorem perm_exprSites : ∀ es : List Expr,
    ((exprSites es).map ImportSite.load).Perm ((exprNodes true es).flatMap Expr.ownLoads)
  | [] => .nil
  | e :: es => by
    simpa [exprSites, exprNodes] using e.perm_sites.append (perm_exprSites es)

theorem Part.perm_sites : ∀ p : Part,
    (p.sites.map ImportSite.load).Perm ((p.nodes true).flatMap Expr.ownLoads)
  | .expr e => by simpa [Part.sites, Part.nodes] using e.perm_sites
  | .types parts => by simpa [Part.sites, Part.nodes] using perm_partSites parts
  | .declarator start target parts init => by
    have hrest := (perm_partSites parts).append init.perm_sites
    cases hsite : boundSite? start target init with
    | none => simpa [Part.sites, Part.nodes, hsite] using hrest
    | some site =>
      -- the recorded call moves from its place to the front
      have hload : ImportSite.load { site with shown := site.start, names := [] } = site.load := rfl
      rw [sites_eq_cons_of_boundSite? hsite, List.map_cons, hload] at hrest
      simpa [Part.sites, Part.nodes, hsite] using List.perm_middle.symm.trans hrest

theorem perm_partSites : ∀ ps : List Part,
    ((partSites ps).map ImportSite.load).Perm ((partNodes true ps).flatMap Expr.ownLoads)
  | [] => .nil
  | p :: ps => by
    simpa [partSites, partNodes] using p.perm_sites.append (perm_partSites ps)

end

/-- The sites of the declarations; `head` as for `itemSites`. -/
def declaredSites (head : Bool) : List Item → List ImportSite
  | [] => []
  | item :: items =>
    item.declared (head && item.keepsHead) ++ declaredSites (head && item.keepsHead) items

theorem perm_itemSites (head : Bool) (items : List Item) :
    ((itemSites head items).map ImportSite.load).Perm
      ((declaredSites head items).map ImportSite.load
        ++ (items.flatMap fun item => partNodes true item.parts).flatMap Expr.ownLoads) := by
  induction items generalizing head with
  | nil => exact .nil
  | cons item items ih =>
    simp only [itemSites, declaredSites, List.map_append, List.flatMap_cons, List.flatMap_append,
      List.append_assoc]
    refine List.Perm.append_left _ ?_
    -- the calls of the first statement stand before the later declarations
    refine ((perm_partSites item.parts).append (ih (head && item.keepsHead))).trans ?_
    rw [← List.append_assoc, ← List.append_assoc]
    exact List.perm_append_comm.append_right _

/-- **The import sites of a module are its declarations and the loads of its nodes**,
types included, each once. -/
theorem Module.perm_importSites (m : Module) :
    (m.importSites.map ImportSite.load).Perm
      ((declaredSites true m.items).map ImportSite.load
        ++ (m.nodes true).flatMap Expr.ownLoads) :=
  ((List.mergeSort_perm _ _).map _).trans (perm_itemSites true m.items)

mutual

theorem Expr.nodes_sublist : ∀ e : Expr, (e.nodes false).Sublist (e.nodes true)
  | .name _ => .refl _
  | .this => .refl _
  | .string _ => .refl _
  | .template _ values => (exprNodes_sublist values).cons_cons _
  | .member object _ => object.nodes_sublist.cons_cons _
  | .index object key => (object.nodes_sublist.append key.nodes_sublist).cons_cons _
  | .call _ callee _ args =>
    ((callee.nodes_sublist.append (List.nil_sublist _)).append (exprNodes_sublist args)).cons_cons _
  | .construct _ callee _ args =>
    ((callee.nodes_sublist.append (List.nil_sublist _)).append (exprNodes_sublist args)).cons_cons _
  | .load _ source options => (source.nodes_sublist.append (exprNodes_sublist options)).cons_cons _
  | .sequence items => (exprNodes_sublist items).cons_cons _
  | .wrapped _ inner _ => (inner.nodes_sublist.append (List.nil_sublist _)).cons_cons _
  | .await operand => operand.nodes_sublist.cons_cons _
  | .spread operand => operand.nodes_sublist.cons_cons _
  | .other parts => (partNodes_sublist parts).cons_cons _

theorem exprNodes_sublist : ∀ es : List Expr, (exprNodes false es).Sublist (exprNodes true es)
  | [] => .refl _
  | e :: es => e.nodes_sublist.append (exprNodes_sublist es)

theorem Part.nodes_sublist : ∀ p : Part, (p.nodes false).Sublist (p.nodes true)
  | .expr e => e.nodes_sublist
  | .types _ => List.nil_sublist _
  | .declarator _ _ parts init => (partNodes_sublist parts).append init.nodes_sublist

theorem partNodes_sublist : ∀ ps : List Part, (partNodes false ps).Sublist (partNodes true ps)
  | [] => .refl _
  | p :: ps => p.nodes_sublist.append (partNodes_sublist ps)

end

/-- What is looked at for uses is looked at for loading calls. -/
theorem Module.nodes_sublist (m : Module) : (m.nodes false).Sublist (m.nodes true) := by
  unfold Module.nodes
  induction m.items with
  | nil => exact .refl _
  | cons item items ih => exact (partNodes_sublist item.parts).append ih

theorem Expr.mem_nodes_self (types : Bool) (e : Expr) : e ∈ e.nodes types := by
  cases e <;> exact .head _

section Below

variable {types : Bool} {n k e : Expr} {xs xs' ys ys' : List Expr}

theorem mem_append_imp (h : n ∈ xs → k ∈ xs') (h' : n ∈ ys → k ∈ ys') (hn : n ∈ xs ++ ys) :
    k ∈ xs' ++ ys' :=
  List.mem_append.2 ((List.mem_append.1 hn).imp h h')

theorem mem_ite_imp (h : n ∈ xs → k ∈ ys) (hn : n ∈ if types then xs else []) :
    k ∈ if types then ys else [] := by
  cases types with
  | false => cases hn
  | true => exact h hn

/-- A node of an expression is the expression itself or stands below it. -/
theorem mem_nodes_of_below (hk : k ∈ n.nodes types) (hnodes : e.nodes types = e :: xs)
    (h : n ∈ xs → k ∈ xs) (hn : n ∈ e.nodes types) : k ∈ e.nodes types := by
  rw [hnodes] at hn
  rcases List.mem_cons.1 hn with rfl | hn
  · exact hk
  · rw [hnodes]
    exact List.mem_cons_of_mem _ (h hn)

end Below

mutual

theorem Expr.mem_nodes_trans {types : Bool} {n k : Expr} (hk : k ∈ n.nodes types) :
    ∀ e : Expr, n ∈ e.nodes types → k ∈ e.nodes types
  | .name _, h | .this, h | .string _, h => List.mem_singleton.1 h ▸ hk
  | .template _ values, h => mem_nodes_of_below hk rfl (mem_exprNodes_trans hk values) h
  | .member object _, h => mem_nodes_of_below hk rfl (Expr.mem_nodes_trans hk object) h
  | .index object key, h => mem_nodes_of_below hk rfl
      (mem_append_imp (Expr.mem_nodes_trans hk object) (Expr.mem_nodes_trans hk key)) h
  | .call _ callee parts args, h => mem_nodes_of_below hk rfl
      (mem_append_imp (mem_append_imp (Expr.mem_nodes_trans hk callee)
        (mem_ite_imp (mem_partNodes_trans hk parts))) (mem_exprNodes_trans hk args)) h
  | .construct _ callee parts args, h => mem_nodes_of_below hk rfl
      (mem_append_imp (mem_append_imp (Expr.mem_nodes_trans hk callee)
        (mem_ite_imp (mem_partNodes_trans hk parts))) (mem_exprNodes_trans hk args)) h
  | .load _ source options, h => mem_nodes_of_below hk rfl
      (mem_append_imp (Expr.mem_nodes_trans hk source) (mem_exprNodes_trans hk options)) h
  | .sequence items, h => mem_nodes_of_below hk rfl (mem_exprNodes_trans hk items) h
  | .wrapped _ inner parts, h => mem_nodes_of_below hk rfl
      (mem_append_imp (Expr.mem_nodes_trans hk inner)
        (mem_ite_imp (mem_partNodes_trans hk parts))) h
  | .await operand, h => mem_nodes_of_below hk rfl (Expr.mem_nodes_trans hk operand) h
  | .spread operand, h => mem_nodes_of_below hk rfl (Expr.mem_nodes_trans hk operand) h
  | .other parts, h => mem_nodes_of_below hk rfl (mem_partNodes_trans hk parts) h

theorem mem_exprNodes_trans {types : Bool} {n k : Expr} (hk : k ∈ n.nodes types) :
    ∀ es : List Expr, n ∈ exprNodes types es → k ∈ exprNodes types es
  | [], h => nomatch h
  | e :: es, h => mem_append_imp (Expr.mem_nodes_trans hk e) (mem_exprNodes_trans hk es) h

theorem Part.mem_nodes_trans {types : Bool} {n k : Expr} (hk : k ∈ n.nodes types) :
    ∀ p : Part, n ∈ p.nodes types → k ∈ p.nodes types
  | .expr e, h => Expr.mem_nodes_trans hk e h
  | .types parts, h => mem_ite_imp (mem_partNodes_trans hk parts) h
  | .declarator _ _ parts init, h =>
    mem_append_imp (mem_partNodes_trans hk parts) (Expr.mem_nodes_trans hk init) h

theorem mem_partNodes_trans {types : Bool} {n k : Expr} (hk : k ∈ n.nodes types) :
    ∀ ps : List Part, n ∈ partNodes types ps → k ∈ partNodes types ps
  | [], h => nomatch h
  | p :: ps, h => mem_append_imp (Part.mem_nodes_trans hk p) (mem_partNodes_trans hk ps) h

end

/-- **A node of a node is a node.** -/
theorem Module.mem_nodes_trans {types : Bool} {m : Module} {n k : Expr}
    (hn : n ∈ m.nodes types) (hk : k ∈ n.nodes types) : k ∈ m.nodes types := by
  obtain ⟨item, hitem, hn⟩ := List.mem_flatMap.1 hn
  exact List.mem_flatMap.2 ⟨item, hitem, mem_partNodes_trans hk item.parts hn⟩

end Source
end DependencyUse
