/-
# Wrappers do not matter

Parentheses, `as`, `satisfies`, `!`, type assertions and type arguments may stand around an
expression without changing its value, and nothing that is read off a module may depend on them.
Every rule that asks for the shape of an expression looks under its wrappers first:

| rule | asked for |
| --- | --- |
| `required?` | the callee `require`, a literal argument |
| `boundSite?` | `await`, a loading call, a member of a `require`, as initialiser |
| `Expr.calleeUses` | a name, a member, a literal key, a sequence and its end, as callee |
| `constructUses` | a name or a member after `new` |
| `plainDynamic` | a text or a literal as argument |
| `Expr.dotted?` | a name, `this` or a member before a member |

A wrapper may bring something of its own: its type can hold expressions.  `Expr.bare` takes off the
wrappers that do not, and every rule answers the same before and after
(`Expr.uses_bare`, `Expr.sites_bare`).  Putting a wrapper around any node of a module leaves its
bare form as it is (`Module.Wraps.bare_eq`), and so its imports and its call graph.

The names that a declarator binds belong to the declarator and stay as they are.
-/

import DependencyUse.Proofs.Source.Nodes
import Mathlib.Logic.Relation

namespace DependencyUse
namespace Source

/-! ## Putting on a wrapper -/

mutual

/-- The second expression is the first one with one more wrapper around one of its nodes. -/
inductive Expr.Wraps : Expr → Expr → Prop where
  | here {wrapper : Wrapper} {e : Expr} {types : List Part} (h : partNodes true types = []) :
      Expr.Wraps e (.wrapped wrapper e types)
  | value {text : Option String} {pre post : List Expr} {e e' : Expr} (h : e.Wraps e') :
      Expr.Wraps (.template text (pre ++ e :: post)) (.template text (pre ++ e' :: post))
  | object {property : String} {e e' : Expr} (h : e.Wraps e') :
      Expr.Wraps (.member e property) (.member e' property)
  | indexed {key e e' : Expr} (h : e.Wraps e') : Expr.Wraps (.index e key) (.index e' key)
  | key {object e e' : Expr} (h : e.Wraps e') : Expr.Wraps (.index object e) (.index object e')
  | callee {start : Nat} {types : List Part} {args : List Expr} {e e' : Expr} (h : e.Wraps e') :
      Expr.Wraps (.call start e types args) (.call start e' types args)
  | callType {start : Nat} {callee : Expr} {pre post : List Part} {args : List Expr} {p p' : Part}
      (h : p.Wraps p') : Expr.Wraps (.call start callee (pre ++ p :: post) args)
        (.call start callee (pre ++ p' :: post) args)
  | argument {start : Nat} {callee : Expr} {types : List Part} {pre post : List Expr} {e e' : Expr}
      (h : e.Wraps e') : Expr.Wraps (.call start callee types (pre ++ e :: post))
        (.call start callee types (pre ++ e' :: post))
  | constructed {start : Nat} {types : List Part} {args : List Expr} {e e' : Expr}
      (h : e.Wraps e') : Expr.Wraps (.construct start e types args) (.construct start e' types args)
  | constructType {start : Nat} {callee : Expr} {pre post : List Part} {args : List Expr}
      {p p' : Part} (h : p.Wraps p') :
      Expr.Wraps (.construct start callee (pre ++ p :: post) args)
        (.construct start callee (pre ++ p' :: post) args)
  | constructArgument {start : Nat} {callee : Expr} {types : List Part} {pre post : List Expr}
      {e e' : Expr} (h : e.Wraps e') :
      Expr.Wraps (.construct start callee types (pre ++ e :: post))
        (.construct start callee types (pre ++ e' :: post))
  | source {start : Nat} {options : List Expr} {e e' : Expr} (h : e.Wraps e') :
      Expr.Wraps (.load start e options) (.load start e' options)
  | option {start : Nat} {source : Expr} {pre post : List Expr} {e e' : Expr} (h : e.Wraps e') :
      Expr.Wraps (.load start source (pre ++ e :: post)) (.load start source (pre ++ e' :: post))
  | item {pre post : List Expr} {e e' : Expr} (h : e.Wraps e') :
      Expr.Wraps (.sequence (pre ++ e :: post)) (.sequence (pre ++ e' :: post))
  | inner {wrapper : Wrapper} {types : List Part} {e e' : Expr} (h : e.Wraps e') :
      Expr.Wraps (.wrapped wrapper e types) (.wrapped wrapper e' types)
  | wrapperType {wrapper : Wrapper} {inner : Expr} {pre post : List Part} {p p' : Part}
      (h : p.Wraps p') : Expr.Wraps (.wrapped wrapper inner (pre ++ p :: post))
        (.wrapped wrapper inner (pre ++ p' :: post))
  | awaited {e e' : Expr} (h : e.Wraps e') : Expr.Wraps (.await e) (.await e')
  | spread {e e' : Expr} (h : e.Wraps e') : Expr.Wraps (.spread e) (.spread e')
  | part {pre post : List Part} {p p' : Part} (h : p.Wraps p') :
      Expr.Wraps (.other (pre ++ p :: post)) (.other (pre ++ p' :: post))

/-- The second part is the first one with one more wrapper around one of its nodes. -/
inductive Part.Wraps : Part → Part → Prop where
  | expr {e e' : Expr} (h : e.Wraps e') : Part.Wraps (.expr e) (.expr e')
  | type {pre post : List Part} {p p' : Part} (h : p.Wraps p') :
      Part.Wraps (.types (pre ++ p :: post)) (.types (pre ++ p' :: post))
  | pattern {start : Nat} {target : Target} {pre post : List Part} {init : Expr} {p p' : Part}
      (h : p.Wraps p') : Part.Wraps (.declarator start target (pre ++ p :: post) init)
        (.declarator start target (pre ++ p' :: post) init)
  | init {start : Nat} {target : Target} {parts : List Part} {e e' : Expr} (h : e.Wraps e') :
      Part.Wraps (.declarator start target parts e) (.declarator start target parts e')

end

/-- The second module is the first one with one more wrapper around one of its nodes. -/
inductive Module.Wraps : Module → Module → Prop where
  | part {before after : List Item} {pre post : List Part} {p p' : Part} (h : p.Wraps p') :
      Module.Wraps ⟨before ++ .other (pre ++ p :: post) :: after⟩
        ⟨before ++ .other (pre ++ p' :: post) :: after⟩

/-! ## Taking wrappers off -/

mutual

/-- The expression without the wrappers that hold no expression but the one they are around. -/
def Expr.bare : Expr → Expr
  | .name id => .name id
  | .this => .this
  | .string value => .string value
  | .template text values => .template text (bareExprs values)
  | .member object property => .member object.bare property
  | .index object key => .index object.bare key.bare
  | .call start callee types args => .call start callee.bare (bareParts types) (bareExprs args)
  | .construct start callee types args =>
    .construct start callee.bare (bareParts types) (bareExprs args)
  | .load start source options => .load start source.bare (bareExprs options)
  | .sequence items => .sequence (bareExprs items)
  | .wrapped wrapper inner types =>
    if (partNodes true types).isEmpty then inner.bare
    else .wrapped wrapper inner.bare (bareParts types)
  | .await operand => .await operand.bare
  | .spread operand => .spread operand.bare
  | .other parts => .other (bareParts parts)

def bareExprs : List Expr → List Expr
  | [] => []
  | e :: es => e.bare :: bareExprs es

def Part.bare : Part → Part
  | .expr e => .expr e.bare
  | .types parts => .types (bareParts parts)
  | .declarator start target parts init => .declarator start target (bareParts parts) init.bare

def bareParts : List Part → List Part
  | [] => []
  | p :: ps => p.bare :: bareParts ps

end

def Item.bare : Item → Item
  | .other parts => .other (bareParts parts)
  | item => item

/-- The module without the wrappers that hold no expression but the one they are around. -/
def Module.bare (m : Module) : Module :=
  ⟨m.items.map Item.bare⟩

theorem bareExprs_eq_map (es : List Expr) : bareExprs es = es.map Expr.bare := by
  induction es with
  | nil => rfl
  | cons e es ih => rw [bareExprs, ih, List.map_cons]

theorem bareParts_eq_map (ps : List Part) : bareParts ps = ps.map Part.bare := by
  induction ps with
  | nil => rfl
  | cons p ps ih => rw [bareParts, ih, List.map_cons]

/-- One expression among others may be replaced by one with the same bare form. -/
theorem bareExprs_middle {e e' : Expr} (pre post : List Expr) (h : e.bare = e'.bare) :
    bareExprs (pre ++ e :: post) = bareExprs (pre ++ e' :: post) := by
  simp only [bareExprs_eq_map, List.map_append, List.map_cons, h]

theorem bareParts_middle {p p' : Part} (pre post : List Part) (h : p.bare = p'.bare) :
    bareParts (pre ++ p :: post) = bareParts (pre ++ p' :: post) := by
  simp only [bareParts_eq_map, List.map_append, List.map_cons, h]

/-! ## A wrapper more, and the same bare form -/

theorem Expr.nodes_ne_nil (types : Bool) (e : Expr) : e.nodes types ≠ [] :=
  List.ne_nil_of_mem (e.mem_nodes_self types)

theorem partNodes_middle (types : Bool) (pre post : List Part) (p : Part) :
    partNodes types (pre ++ p :: post)
      = partNodes types pre ++ (p.nodes types ++ partNodes types post) := by
  induction pre with
  | nil => rfl
  | cons q pre ih => rw [List.cons_append, partNodes, ih, partNodes, List.append_assoc]

theorem partNodes_middle_ne_nil {types : Bool} {pre post : List Part} {p : Part}
    (h : p.nodes types ≠ []) : partNodes types (pre ++ p :: post) ≠ [] := by
  rw [partNodes_middle]
  exact List.append_ne_nil_of_right_ne_nil _ (List.append_ne_nil_of_left_ne_nil h _)

/-- A part with a node to wrap holds an expression, and so does the part with the wrapper. -/
theorem Part.Wraps.nodes_ne_nil : ∀ {p p' : Part}, p.Wraps p' →
    p.nodes true ≠ [] ∧ p'.nodes true ≠ []
  | _, _, @Part.Wraps.expr e e' _ => ⟨e.nodes_ne_nil true, e'.nodes_ne_nil true⟩
  | _, _, .type h => h.nodes_ne_nil.imp partNodes_middle_ne_nil partNodes_middle_ne_nil
  | _, _, .pattern h => h.nodes_ne_nil.imp
      (fun h => List.append_ne_nil_of_left_ne_nil (partNodes_middle_ne_nil h) _)
      (fun h => List.append_ne_nil_of_left_ne_nil (partNodes_middle_ne_nil h) _)
  | _, _, @Part.Wraps.init _ _ _ e e' _ =>
    ⟨List.append_ne_nil_of_right_ne_nil _ (e.nodes_ne_nil true),
      List.append_ne_nil_of_right_ne_nil _ (e'.nodes_ne_nil true)⟩

mutual

theorem Expr.Wraps.bare_eq : ∀ {e e' : Expr}, e.Wraps e' → e.bare = e'.bare
  | _, _, .here h => by rw [Expr.bare, h]; rfl
  | _, _, .value h => congrArg (Expr.template _) (bareExprs_middle _ _ h.bare_eq)
  | _, _, .object h => congrArg (Expr.member · _) h.bare_eq
  | _, _, .indexed h => congrArg (Expr.index · _) h.bare_eq
  | _, _, .key h => congrArg (Expr.index _) h.bare_eq
  | _, _, .callee h => congrArg (Expr.call _ · _ _) h.bare_eq
  | _, _, .callType h => congrArg (Expr.call _ _ · _) (bareParts_middle _ _ h.bare_eq)
  | _, _, .argument h => congrArg (Expr.call _ _ _) (bareExprs_middle _ _ h.bare_eq)
  | _, _, .constructed h => congrArg (Expr.construct _ · _ _) h.bare_eq
  | _, _, .constructType h => congrArg (Expr.construct _ _ · _) (bareParts_middle _ _ h.bare_eq)
  | _, _, .constructArgument h => congrArg (Expr.construct _ _ _) (bareExprs_middle _ _ h.bare_eq)
  | _, _, .source h => congrArg (Expr.load _ · _) h.bare_eq
  | _, _, .option h => congrArg (Expr.load _ _) (bareExprs_middle _ _ h.bare_eq)
  | _, _, .item h => congrArg Expr.sequence (bareExprs_middle _ _ h.bare_eq)
  | _, _, .inner h => by rw [Expr.bare, Expr.bare, h.bare_eq]
  | _, _, .wrapperType h => by
    -- the types hold an expression with the new wrapper and without it
    rw [Expr.bare, Expr.bare, bareParts_middle _ _ h.bare_eq,
      List.isEmpty_eq_false_iff.2 (partNodes_middle_ne_nil h.nodes_ne_nil.1),
      List.isEmpty_eq_false_iff.2 (partNodes_middle_ne_nil h.nodes_ne_nil.2)]
  | _, _, .awaited h => congrArg Expr.await h.bare_eq
  | _, _, .spread h => congrArg Expr.spread h.bare_eq
  | _, _, .part h => congrArg Expr.other (bareParts_middle _ _ h.bare_eq)

theorem Part.Wraps.bare_eq : ∀ {p p' : Part}, p.Wraps p' → p.bare = p'.bare
  | _, _, .expr h => congrArg Part.expr h.bare_eq
  | _, _, .type h => congrArg Part.types (bareParts_middle _ _ h.bare_eq)
  | _, _, .pattern h => congrArg (Part.declarator _ _ · _) (bareParts_middle _ _ h.bare_eq)
  | _, _, .init h => congrArg (Part.declarator _ _ _) h.bare_eq

end

/-- **A wrapper around a node leaves the bare form of a module as it is.** -/
theorem Module.Wraps.bare_eq {m m' : Module} (h : m.Wraps m') : m.bare = m'.bare := by
  obtain ⟨h⟩ := h
  simp only [Module.bare, List.map_append, List.map_cons, Item.bare, bareParts_middle _ _ h.bare_eq]

/-! ## The rules look under wrappers -/

theorem Expr.inner_bare (e : Expr) : e.bare.inner = e.inner.bare := by
  fun_induction Expr.inner e with
  | case1 wrapper inner types ih =>
    rw [Expr.bare]
    split
    · exact ih
    · exact ih
  | case2 e hwrapped =>
    cases e with
    | wrapped wrapper inner types => exact absurd rfl (hwrapped wrapper inner types)
    | _ => rfl

theorem Expr.inner_ne_wrapped (e : Expr) (wrapper : Wrapper) (inner : Expr) (types : List Part) :
    e.inner ≠ .wrapped wrapper inner types := by
  fun_induction Expr.inner e with
  | case1 _ _ _ ih => exact ih
  | case2 e hwrapped => exact hwrapped wrapper inner types

@[simp] theorem Expr.literal?_bare (e : Expr) : e.bare.literal? = e.literal? := by
  rw [Expr.literal?, Expr.literal?, e.inner_bare]
  cases hinner : e.inner with
  | template text values => cases values <;> rfl
  | wrapped wrapper inner types => exact absurd hinner (e.inner_ne_wrapped wrapper inner types)
  | _ => rfl

@[simp] theorem Expr.isText_bare (e : Expr) : e.bare.isText = e.isText := by
  rw [Expr.isText, Expr.isText, e.inner_bare]
  cases hinner : e.inner with
  | wrapped wrapper inner types => exact absurd hinner (e.inner_ne_wrapped wrapper inner types)
  | _ => rfl

@[simp] theorem Expr.dotted?_bare : ∀ e : Expr, e.bare.dotted? = e.dotted?
  | .member object property => by rw [Expr.bare, Expr.dotted?, Expr.dotted?, object.dotted?_bare]
  | .wrapped wrapper inner types => by
    rw [Expr.bare, Expr.dotted?, ← inner.dotted?_bare]
    split <;> rfl
  | .name _ | .this | .string _ | .template _ _ | .index _ _ | .call _ _ _ _
  | .construct _ _ _ _ | .load _ _ _ | .sequence _ | .await _ | .spread _ | .other _ => rfl

@[simp] theorem required?_bare (callee : Expr) (args : List Expr) :
    required? callee.bare (bareExprs args) = required? callee args := by
  unfold required?
  rw [callee.inner_bare]
  cases hinner : callee.inner with
  | wrapped wrapper inner types =>
    exact absurd hinner (callee.inner_ne_wrapped wrapper inner types)
  | name id =>
    by_cases hid : id = "require"
    · subst hid
      rcases args with _ | ⟨arg, _ | ⟨next, args⟩⟩
      · rfl
      · exact arg.literal?_bare
      · rfl
    · simp [Expr.bare, hid]
  | _ => rfl

theorem head?_any_isText_bare (args : List Expr) :
    (bareExprs args).head?.any Expr.isText = args.head?.any Expr.isText := by
  cases args with
  | nil => rfl
  | cons arg args => exact arg.isText_bare

@[simp] theorem plainDynamic_bare (name : String) (start : Nat) (args : List Expr) :
    plainDynamic name start (bareExprs args) = plainDynamic name start args := by
  unfold plainDynamic
  rw [head?_any_isText_bare]
  rcases args with _ | ⟨arg, _ | ⟨next, args⟩⟩
  · rfl
  · simp only [bareExprs]
    rw [arg.literal?_bare]
  · rfl

@[simp] theorem constructUses_bare (start : Nat) (callee : Expr) :
    constructUses start callee.bare = constructUses start callee := by
  rw [constructUses, constructUses, callee.inner_bare]
  cases hinner : callee.inner with
  | wrapped wrapper inner types =>
    exact absurd hinner (callee.inner_ne_wrapped wrapper inner types)
  | member object property => simp only [Expr.bare, object.dotted?_bare]
  | _ => rfl

mutual

theorem Expr.calleeUses_bare {start : Nat} {args : List Expr} : ∀ callee : Expr,
    callee.bare.calleeUses start (bareExprs args) = callee.calleeUses start args
  | .name id => by rw [Expr.bare, Expr.calleeUses, Expr.calleeUses, plainDynamic_bare]
  | .member object property => by
    rw [Expr.bare, Expr.calleeUses, Expr.calleeUses, methodUses, methodUses, object.dotted?_bare]
  | .index object key => by
    rw [Expr.bare, Expr.calleeUses, Expr.calleeUses, key.literal?_bare, object.dotted?_bare]
  | .sequence items => lastCalleeUses_bare items
  | .wrapped wrapper inner types => by
    rw [Expr.bare, Expr.calleeUses, ← inner.calleeUses_bare]
    split <;> rfl
  | .this | .string _ | .template _ _ | .call _ _ _ _ | .construct _ _ _ _ | .load _ _ _
  | .await _ | .spread _ | .other _ => rfl

theorem lastCalleeUses_bare {start : Nat} {args : List Expr} : ∀ items : List Expr,
    lastCalleeUses start (bareExprs args) (bareExprs items) = lastCalleeUses start args items
  | [] => rfl
  | [last] => by
    rw [bareExprs, bareExprs, lastCalleeUses, lastCalleeUses, last.inner_bare, last.calleeUses_bare]
    cases hinner : last.inner with
    | wrapped wrapper inner types =>
      exact absurd hinner (last.inner_ne_wrapped wrapper inner types)
    | _ => rfl
  | _ :: next :: items => lastCalleeUses_bare (next :: items)

end

/-! ## The walks -/

mutual

theorem Expr.uses_bare : ∀ e : Expr, e.bare.uses = e.uses
  | .name _ => rfl
  | .this => rfl
  | .string _ => rfl
  | .template _ values => by rw [Expr.bare, Expr.uses, Expr.uses, exprUses_bare values]
  | .member object _ => by
    rw [Expr.bare, Expr.uses, Expr.uses, object.dotted?_bare, object.uses_bare]
  | .index object key => by
    rw [Expr.bare, Expr.uses, Expr.uses, object.uses_bare, key.uses_bare]
  | .call _ callee _ args => by
    rw [Expr.bare, Expr.uses, Expr.uses, callee.calleeUses_bare, callee.uses_bare,
      exprUses_bare args]
  | .construct _ callee _ args => by
    rw [Expr.bare, Expr.uses, Expr.uses, constructUses_bare, callee.uses_bare, exprUses_bare args]
  | .load _ source options => by
    rw [Expr.bare, Expr.uses, Expr.uses, source.literal?_bare, source.uses_bare,
      exprUses_bare options]
  | .sequence items => by rw [Expr.bare, Expr.uses, Expr.uses, exprUses_bare items]
  | .wrapped _ inner types => by
    rw [Expr.bare, Expr.uses, ← inner.uses_bare]
    split <;> rfl
  | .await operand => by rw [Expr.bare, Expr.uses, Expr.uses, operand.uses_bare]
  | .spread operand => by rw [Expr.bare, Expr.uses, Expr.uses, operand.uses_bare]
  | .other parts => by rw [Expr.bare, Expr.uses, Expr.uses, partUses_bare parts]

theorem exprUses_bare : ∀ es : List Expr, exprUses (bareExprs es) = exprUses es
  | [] => rfl
  | e :: es => by rw [bareExprs, exprUses, exprUses, e.uses_bare, exprUses_bare es]

theorem Part.uses_bare : ∀ p : Part, p.bare.uses = p.uses
  | .expr e => e.uses_bare
  | .types _ => rfl
  | .declarator _ _ parts init => by
    rw [Part.bare, Part.uses, Part.uses, partUses_bare parts, init.uses_bare]

theorem partUses_bare : ∀ ps : List Part, partUses (bareParts ps) = partUses ps
  | [] => rfl
  | p :: ps => by rw [bareParts, partUses, partUses, p.uses_bare, partUses_bare ps]

end

theorem Expr.loaded_bare (e : Expr) : e.bare.loaded = e.loaded.bare := by
  rw [Expr.loaded, Expr.loaded, e.inner_bare]
  cases hinner : e.inner with
  | wrapped wrapper inner types => exact absurd hinner (e.inner_ne_wrapped wrapper inner types)
  | await operand => exact operand.inner_bare
  | _ => rfl

theorem Expr.loaded_ne_wrapped (e : Expr) (wrapper : Wrapper) (inner : Expr) (types : List Part) :
    e.loaded ≠ .wrapped wrapper inner types := by
  unfold Expr.loaded
  split
  · exact Expr.inner_ne_wrapped _ wrapper inner types
  · exact e.inner_ne_wrapped wrapper inner types

/-- A declarator records the same call. -/
@[simp] theorem boundSite?_bare (start : Nat) (target : Target) (init : Expr) :
    boundSite? start target init.bare = boundSite? start target init := by
  rw [boundSite?, boundSite?, init.loaded_bare]
  cases hloaded : init.loaded with
  | wrapped wrapper inner types => exact absurd hloaded (init.loaded_ne_wrapped wrapper inner types)
  | call at_ callee types args => simp only [Expr.bare, required?_bare]
  | load at_ source options => simp only [Expr.bare, Expr.literal?_bare]
  | member object property =>
    simp only [Expr.bare, object.inner_bare]
    cases hobject : object.inner with
    | wrapped wrapper inner types =>
      exact absurd hobject (object.inner_ne_wrapped wrapper inner types)
    | call at_ callee types args => simp only [Expr.bare, required?_bare]
    | _ => rfl
  | _ => rfl

theorem partSites_eq_nil {ps : List Part} (h : partNodes true ps = []) : partSites ps = [] := by
  have hperm := perm_partSites ps
  rw [h] at hperm
  exact List.map_eq_nil_iff.1 hperm.eq_nil

mutual

theorem Expr.sites_bare : ∀ (e : Expr) (bound : Bool), e.bare.sites bound = e.sites bound
  | .name _, _ => rfl
  | .this, _ => rfl
  | .string _, _ => rfl
  | .template _ values, _ => by rw [Expr.bare, Expr.sites, Expr.sites, exprSites_bare values]
  | .member object _, bound => by
    rw [Expr.bare, Expr.sites, Expr.sites, object.sites_bare bound]
  | .index object key, _ => by
    rw [Expr.bare, Expr.sites, Expr.sites, object.sites_bare false, key.sites_bare false]
  | .call _ callee types args, bound => by
    rw [Expr.bare, Expr.sites, Expr.sites, required?_bare, callee.sites_bare false,
      partSites_bare types, exprSites_bare args]
  | .construct _ callee types args, _ => by
    rw [Expr.bare, Expr.sites, Expr.sites, callee.sites_bare false, partSites_bare types,
      exprSites_bare args]
  | .load _ source options, bound => by
    rw [Expr.bare, Expr.sites, Expr.sites, source.literal?_bare, source.sites_bare false,
      exprSites_bare options]
  | .sequence items, _ => by rw [Expr.bare, Expr.sites, Expr.sites, exprSites_bare items]
  | .wrapped _ inner types, bound => by
    rw [Expr.bare, Expr.sites]
    split
    · rename_i hempty
      rw [partSites_eq_nil (List.isEmpty_iff.1 hempty), List.append_nil, inner.sites_bare bound]
    · rw [Expr.sites, inner.sites_bare bound, partSites_bare types]
  | .await operand, bound => by
    rw [Expr.bare, Expr.sites, Expr.sites, operand.sites_bare bound]
  | .spread operand, _ => by rw [Expr.bare, Expr.sites, Expr.sites, operand.sites_bare false]
  | .other parts, _ => by rw [Expr.bare, Expr.sites, Expr.sites, partSites_bare parts]

theorem exprSites_bare : ∀ es : List Expr, exprSites (bareExprs es) = exprSites es
  | [] => rfl
  | e :: es => by rw [bareExprs, exprSites, exprSites, e.sites_bare false, exprSites_bare es]

theorem Part.sites_bare : ∀ p : Part, p.bare.sites = p.sites
  | .expr e => e.sites_bare false
  | .types parts => partSites_bare parts
  | .declarator start target parts init => by
    rw [Part.bare, Part.sites, Part.sites, boundSite?_bare, partSites_bare parts,
      init.sites_bare _]

theorem partSites_bare : ∀ ps : List Part, partSites (bareParts ps) = partSites ps
  | [] => rfl
  | p :: ps => by rw [bareParts, partSites, partSites, p.sites_bare, partSites_bare ps]

end

/-! ## Modules -/

theorem Item.parts_bare (item : Item) : item.bare.parts = bareParts item.parts := by
  cases item <;> rfl

theorem Item.declared_bare (item : Item) (head : Bool) :
    item.bare.declared head = item.declared head := by
  cases item <;> rfl

theorem Item.keepsHead_bare (item : Item) : item.bare.keepsHead = item.keepsHead := by
  cases item <;> rfl

theorem itemSites_bare (head : Bool) (items : List Item) :
    itemSites head (items.map Item.bare) = itemSites head items := by
  induction items generalizing head with
  | nil => rfl
  | cons item items ih =>
    simp only [List.map_cons, itemSites, item.keepsHead_bare, item.declared_bare, item.parts_bare,
      partSites_bare, ih]

theorem Module.imports_bare (locate : Nat → Location) (m : Module) :
    m.bare.imports locate = m.imports locate := by
  simp only [Module.imports, Module.importSites, Module.bare, itemSites_bare]

theorem Module.callGraph_bare (locate : Nat → Location) (m : Module) :
    m.bare.callGraph locate = m.callGraph locate := by
  simp only [Module.callGraph, Module.uses, Module.bare, List.flatMap_map, Item.parts_bare,
    partUses_bare]

/-- **Wrappers do not matter.**  Two modules have the same imports and the same call graph if one
comes from the other by putting wrappers around nodes and taking them off, as long as the types in
these wrappers hold no expressions. -/
theorem Module.imports_callGraph_eq_of_wraps (locate : Nat → Location) {m m' : Module}
    (h : Relation.EqvGen Module.Wraps m m') :
    m.imports locate = m'.imports locate ∧ m.callGraph locate = m'.callGraph locate := by
  have hbare : m.bare = m'.bare := by
    induction h with
    | rel m m' h => exact h.bare_eq
    | refl m => rfl
    | symm m m' _ ih => exact ih.symm
    | trans m m' m'' _ _ ih ih' => exact ih.trans ih'
  constructor
  · rw [← m.imports_bare, hbare, m'.imports_bare]
  · rw [← m.callGraph_bare, hbare, m'.callGraph_bare]

/-- `const n = `, a call with the given callee, `.a` -/
def memberOfCall (callee : Expr) : Module :=
  ⟨[.other [.declarator 6 (.name "n") [] (.member (.call 10 callee [] [.string "m"]) "a")]]⟩

/-- `const n = require('m').a;` and `const n = (require as any)('m').a;` import the same. -/
theorem Module.imports_callGraph_eq_of_wraps_require :
    let bare := memberOfCall (.name "require")
    let wrapped := memberOfCall
      (.wrapped .parentheses (.wrapped .asType (.name "require") [.types []]) [])
    Relation.EqvGen Module.Wraps wrapped bare ∧
      wrapped.imports (fun _ => default) = bare.imports (fun _ => default) ∧
      wrapped.callGraph (fun _ => default) = bare.callGraph (fun _ => default) := by
  intro bare wrapped
  have hstep {e e' : Expr} (h : e.Wraps e') : (memberOfCall e).Wraps (memberOfCall e') :=
    @Module.Wraps.part [] [] [] [] _ _ (.init (.object (.callee h)))
  have hwraps : Relation.EqvGen Module.Wraps bare wrapped :=
    .trans _ (memberOfCall (.wrapped .asType (.name "require") [.types []])) _
      (.rel _ _ (hstep (.here rfl))) (.rel _ _ (hstep (.here rfl)))
  exact ⟨hwraps.symm, Module.imports_callGraph_eq_of_wraps _ hwraps.symm⟩

end Source
end DependencyUse
