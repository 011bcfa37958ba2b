/-
# Loading calls are seen once

A node loads a module if it is an `import()`, or a call that counts as a plain call of
`require` and has one argument.  Either its module can be read off the source and there
is an import record, or it is computed and the call graph says so.  The two walks decide
this apart from each other, each with its own test of the callee and of the argument:

| callee of `require` | argument | import record | computed |
| --- | --- | --- | --- |
| the name, wrapped or not | literal | one | none |
| the name, wrapped or not | other | none | one |
| the end of a sequence, `(0, require)` | literal | none | none |
| the end of a sequence, `(0, require)` | other | none | one |

The third line is the only gap (`Expr.behindComma`).
-/

import DependencyUse.Proofs.Source.Nodes

namespace DependencyUse
namespace Source

/-- The calls that a node makes by itself. -/
def Expr.ownCalls (locate : Nat → Location) (e : Expr) : List CallSite :=
  e.ownUses.filterMap (Use.callSite? locate)

/-- The code that a node makes at run time by itself. -/
def Expr.ownDynamic (locate : Nat → Location) (e : Expr) : List DynamicCode :=
  e.ownUses.filterMap (Use.dynamicCode? locate)

/-- The node loads a module: an `import()`, or a plain call of `require` with one
argument. -/
def Expr.Loads (locate : Nat → Location) : Expr → Prop
  | .load .. => True
  | .call start callee types args =>
    ⟨"require", none, .plain, locate start⟩ ∈ (Expr.call start callee types args).ownCalls locate
      ∧ args.length = 1
  | _ => False

/-- How and where a node is marked if it computes the module that it loads. -/
def Expr.computedMark? (locate : Nat → Location) : Expr → Option (DynamicKind × Location)
  | .load start .. => some (.computedImport, locate start)
  | .call start .. => some (.computedRequire, locate start)
  | _ => none

/-- The call has a literal argument, and its callee is a sequence. -/
def Expr.behindComma : Expr → Bool
  | .call _ callee _ [arg] => (callee.inner matches .sequence _) && arg.literal?.isSome
  | _ => false

/-- **What is recorded of a module is recorded of its nodes.** -/
structure Module.RecordedByNodes (locate : Nat → Location) (m : Module) : Prop where
  /-- one import record for each declaration and for each load of a node -/
  imports : ∃ sites : List ImportSite, m.imports locate = sites.map (ImportRecord.ofSite locate) ∧
    (sites.map ImportSite.load).Perm
      ((declaredSites true m.items).map ImportSite.load ++ (m.nodes true).flatMap Expr.ownLoads)
  callSites : (m.callGraph locate).callSites = (m.nodes false).flatMap (Expr.ownCalls locate)
  dynamicCode : (m.callGraph locate).dynamicCode = (m.nodes false).flatMap (Expr.ownDynamic locate)
  /-- what the call graph looks at is looked at for imports -/
  sublist : (m.nodes false).Sublist (m.nodes true)

theorem Module.recordedByNodes (locate : Nat → Location) (m : Module) :
    m.RecordedByNodes locate where
  imports := ⟨m.importSites, rfl, m.perm_importSites⟩
  callSites := by
    simp only [Module.callGraph, CallGraph.ofUses, m.uses_eq_flatMap_nodes, List.filterMap_flatMap]
    rfl
  dynamicCode := by
    simp only [Module.callGraph, CallGraph.ofUses, m.uses_eq_flatMap_nodes, List.filterMap_flatMap]
    rfl
  sublist := m.nodes_sublist

/-- A method call is no plain call. -/
theorem plain_not_mem_methodUses {object : Expr} {property callee : String}
    {receiver : Option String} {start at_ : Nat} :
    Use.call callee receiver .plain at_ ∉ methodUses object property start := by
  unfold methodUses
  cases object.dotted? with
  | none => simp
  | some path => dsimp only; split <;> simp

mutual

/-- A callee that comes down to `require` is that name or a sequence, under wrappers,
and the call uses nothing else by it. -/
theorem Expr.calleeUses_of_require {start at_ : Nat} {args : List Expr} : ∀ callee : Expr,
    Use.call "require" none .plain at_ ∈ callee.calleeUses start args →
      callee.calleeUses start args
          = .call "require" none .plain start :: plainDynamic "require" start args ∧
        (callee.inner = .name "require" ∨ ∃ items, callee.inner = .sequence items)
  | .name id, h => by
    rw [Expr.calleeUses] at h ⊢
    rcases List.mem_cons.1 h with h | h
    · cases h
      exact ⟨rfl, .inl rfl⟩
    · obtain ⟨_, _, _, hdynamic⟩ := exists_dynamic_of_mem_plainDynamic h
      cases hdynamic
  | .sequence items, h => ⟨lastCalleeUses_of_require items h, .inr ⟨items, rfl⟩⟩
  | .wrapped _ inner _, h => inner.calleeUses_of_require h
  | .member _ _, h => absurd h plain_not_mem_methodUses
  | .index _ key, h => by
    rw [Expr.calleeUses] at h
    split at h <;> simp at h
  | .this, h | .string _, h | .template _ _, h | .call _ _ _ _, h | .construct _ _ _ _, h
  | .load _ _ _, h | .await _, h | .spread _, h | .other _, h => nomatch h

theorem lastCalleeUses_of_require {start at_ : Nat} {args : List Expr} : ∀ items : List Expr,
    Use.call "require" none .plain at_ ∈ lastCalleeUses start args items →
      lastCalleeUses start args items
        = .call "require" none .plain start :: plainDynamic "require" start args
  | [], h => nomatch h
  | [last], h => by
    rw [lastCalleeUses] at h ⊢
    split at h
    · simp at h
    · exact (last.calleeUses_of_require h).1
  | _ :: next :: items, h => lastCalleeUses_of_require (next :: items) h

end

/-- A call stands among the calls of a node because the node makes it. -/
theorem Expr.exists_call_of_mem_ownCalls {locate : Nat → Location} {e : Expr} {site : CallSite}
    (h : site ∈ e.ownCalls locate) :
    ∃ at_, Use.call site.callee site.receiver site.kind at_ ∈ e.ownUses := by
  obtain ⟨use, huse, hsite⟩ := List.mem_filterMap.1 h
  cases use with
  | call callee receiver kind at_ =>
    cases hsite
    exact ⟨at_, huse⟩
  | dynamic kind at_ context => cases hsite
  | mention name => cases hsite

/-- An `import()` makes code at run time if what it loads is computed. -/
theorem Expr.ownDynamic_load (locate : Nat → Location) (start : Nat) (source : Expr)
    (options : List Expr) :
    (Expr.load start source options).ownDynamic locate =
      if source.literal?.isNone then
        [⟨.computedImport, locate start, "import() with a computed module name"⟩]
      else [] := by
  rw [Expr.ownDynamic, Expr.ownUses]
  split <;> rfl

/-- A `require` of one argument makes code at run time if what it loads is computed,
behind a comma or not. -/
theorem Expr.ownDynamic_require {locate : Nat → Location} {start : Nat} {callee : Expr}
    {types : List Part} {arg : Expr}
    (h : callee.calleeUses start [arg]
      = .call "require" none .plain start :: plainDynamic "require" start [arg]) :
    (Expr.call start callee types [arg]).ownDynamic locate =
      if arg.literal?.isNone then
        [⟨.computedRequire, locate start, "require() with a computed module name"⟩]
      else [] := by
  have hdynamic : plainDynamic "require" start [arg] =
      if arg.literal?.isNone then
        [.dynamic .computedRequire start "require() with a computed module name"]
      else [] := rfl
  rw [Expr.ownDynamic, Expr.ownUses, h, hdynamic]
  split <;> rfl

/-- **A node that loads a module is seen once**, unless it is a `require` of a literal
behind a comma. -/
theorem Expr.seen_once_of_loads {locate : Nat → Location} {e : Expr} (h : e.Loads locate) :
    e.ownLoads.length + (e.ownDynamic locate).length = (if e.behindComma then 0 else 1) ∧
      ∀ d ∈ e.ownDynamic locate, e.computedMark? locate = some (d.kind, d.location) := by
  unfold Expr.Loads at h
  split at h
  · rename_i start source options
    rw [Expr.ownDynamic_load]
    cases hliteral : source.literal? <;>
      simp [Expr.ownLoads, Expr.behindComma, Expr.computedMark?, hliteral]
  · rename_i start callee types args
    obtain ⟨hcall, hargs⟩ := h
    obtain ⟨arg, rfl⟩ := List.length_eq_one_iff.1 hargs
    obtain ⟨at_, huse⟩ := Expr.exists_call_of_mem_ownCalls hcall
    obtain ⟨huses, hinner⟩ := callee.calleeUses_of_require huse
    rw [Expr.ownDynamic_require huses]
    -- the import record asks for the name itself, the call graph also looks behind a comma
    rcases hinner with hinner | ⟨items, hinner⟩ <;> cases hliteral : arg.literal? <;>
      simp [Expr.ownLoads, Expr.behindComma, Expr.computedMark?, required?, hinner, hliteral]
  · cases h

/-- **Each loading call of a module is seen once, except behind a comma.**  What is
recorded of a module is what is recorded of its nodes.  Of a node that loads a module
there is either one import record or one entry of computed code, and of a `require` of a
literal behind a comma there is neither. -/
theorem Module.load_seen_once_unless_behindComma (locate : Nat → Location) (m : Module) :
    m.RecordedByNodes locate ∧
      ∀ e ∈ m.nodes false, e.Loads locate →
        e.ownLoads.length + (e.ownDynamic locate).length = (if e.behindComma then 0 else 1) ∧
          ∀ d ∈ e.ownDynamic locate, e.computedMark? locate = some (d.kind, d.location) :=
  ⟨m.recordedByNodes locate, fun _ _ hloads => Expr.seen_once_of_loads hloads⟩

/-- `(require)('a')` -/
def wrappedRequire : Expr :=
  .call 16 (.wrapped .parentheses (.name "require") []) [] [.string "a"]

/-- `const x = await (require)('a');`, where the call is recorded at its declarator. -/
theorem Module.load_seen_once_of_declarator :
    wrappedRequire ∈
        Module.nodes false ⟨[.other [.declarator 6 (.name "x") [] (.await wrappedRequire)]]⟩ ∧
      wrappedRequire.Loads (fun _ => default) ∧
      wrappedRequire.ownLoads.length + (wrappedRequire.ownDynamic fun _ => default).length = 1 := by
  have hmem : wrappedRequire ∈
      Module.nodes false ⟨[.other [.declarator 6 (.name "x") [] (.await wrappedRequire)]]⟩ :=
    .tail _ (.head _)
  have hloads : wrappedRequire.Loads fun _ => default := ⟨by decide, rfl⟩
  exact ⟨hmem, hloads, ((Module.load_seen_once_unless_behindComma _ _).2 _ hmem hloads).1⟩

/-- `(0, require)('lodash');` is a plain call of `require`, and there is neither an import
record nor an entry of computed code of it. -/
theorem Module.load_unseen_behindComma :
    let m : Module := ⟨[.other [.expr (.call 0
      (.wrapped .parentheses (.sequence [.other [], .name "require"]) []) [] [.string "lodash"])]]⟩
    (m.callGraph fun _ => default).callSites = [⟨"require", none, .plain, default⟩] ∧
      m.imports (fun _ => default) = [] ∧ (m.callGraph fun _ => default).dynamicCode = [] := by
  refine ⟨by decide, ?_, by decide⟩
  show (List.mergeSort [] _).map _ = []
  rw [List.mergeSort_nil, List.map_nil]

end Source
end DependencyUse
