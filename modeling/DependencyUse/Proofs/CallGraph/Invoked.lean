/-
# Which calls make a name count as invoked

A call graph keeps the names that are called in one set, and what counts as a call of a
binding is read back out of the set.  Several calls leave the same text in it:

| call | texts | is a call through `f` |
| --- | --- | --- |
| `f()`, `new f()`, `(0, f)()` | `f` | yes |
| `f.a()`, `f.a.b()`, `f['a']()` | `a`, `f.a` and so on | yes |
| `x.f()`, `x['f']()`, `g().f()`, `new x.f()` | `f`, and `x.f` where there is a path | no |
| `x['f.a']()` | `f.a`, `x.f.a` | no |

The last two lines mislead: the name counts as invoked, and nothing is called through it.
No other call does (`callsThrough_or_misleadsAbout`): the path before a member begins
with the name that the call goes through.
-/

import DependencyUse.Proofs.NameSet
import DependencyUse.Proofs.Source.Nodes

namespace DependencyUse

/-- The text is a name, or leads to a member of it. -/
def IsOrMemberOf (name text : String) : Prop :=
  text = name ∨ ∃ member, LeadsTo name member text

/-- **A name counts as invoked** exactly when it is called itself, or a called name leads
through it. -/
theorem CallGraph.isInvoked_iff {g : CallGraph} {name : String} :
    g.isInvoked name = true ↔ name ∈ g.calledNames.toList ∨
      ∃ full ∈ g.calledNames.toList, ∃ member, LeadsTo name member full := by
  rw [isInvoked, Bool.or_eq_true, isCalled, NameSet.contains_iff, Bool.not_eq_true',
    List.isEmpty_eq_false_iff_exists_mem]
  refine or_congr_right ⟨?_, ?_⟩
  · rintro ⟨member, hmember⟩
    obtain ⟨full, hfull, hleads⟩ := NameSet.mem_membersOf.1 hmember
    exact ⟨full, hfull, member, hleads⟩
  · rintro ⟨full, hfull, member, hleads⟩
    exact ⟨member, NameSet.mem_membersOf.2 ⟨full, hfull, hleads⟩⟩

namespace Source

/-- What a call calls: a name, or a member of an object. -/
inductive Callee where
  | name (id : String)
  | member (object : Expr) (property : String)

namespace Callee

/-- The last part of what is called. -/
def text : Callee → String
  | name id => id
  | member _ property => property

/-- The texts that stand for what is called: its last part, and the path to it if there
is one. -/
def texts : Callee → List String
  | name id => [id]
  | member object property =>
    property :: (object.dotted?.map fun path => path ++ "." ++ property).toList

/-- The call goes through a binding: it calls the binding, or a member on a path that
begins with it. -/
def GoesThrough (binding : String) : Callee → Prop
  | name id => id = binding
  | member object _ =>
    ∃ path ∈ object.dotted?, firstSegment path.toList = binding.toList

/-- The call does not go through a binding, and the last part of what it calls reads like
the binding or like a member of it. -/
def Misleads (binding : String) (callee : Callee) : Prop :=
  ¬ callee.GoesThrough binding ∧ IsOrMemberOf binding callee.text

end Callee

mutual

/-- The expression that a call runs: the one under all wrappers, and of a sequence the
last one. -/
def Expr.target : Expr → Expr
  | .wrapped _ inner _ => inner.target
  | .sequence items => lastTarget items
  | e => e

/-- The expression that a call of the last one of some expressions runs. -/
def lastTarget : List Expr → Expr
  | [] => .sequence []
  | [last] => last.target
  | _ :: items => lastTarget items

end

/-- What a call that runs an expression calls, if the source says what. -/
def Expr.callee? : Expr → Option Callee
  | .name id => some (.name id)
  | .member object property => some (.member object property)
  | .index object key => key.literal?.map (.member object)
  | _ => none

/-- What `new` with an expression calls, if the source says what. -/
def Expr.constructed? : Expr → Option Callee
  | .name id => some (.name id)
  | .member object property => some (.member object property)
  | _ => none

/-- What a node calls, if it is a call and the source says what. -/
def Expr.calls? : Expr → Option Callee
  | .call _ callee _ _ => callee.target.callee?
  | .construct _ callee _ _ => callee.inner.constructed?
  | _ => none

/-- The texts that calls leave in a call graph. -/
def calledTexts (uses : List Use) : List String :=
  uses.flatMap Use.calledNames

/-- The texts of what is called, if it is known. -/
def Callee.textsOf (callee : Option Callee) : List String :=
  (callee.map texts).getD []

theorem calledTexts_plainDynamic (name : String) (start : Nat) (args : List Expr) :
    calledTexts (plainDynamic name start args) = [] := by
  refine List.flatMap_eq_nil_iff.2 fun use huse => ?_
  obtain ⟨_, _, _, rfl⟩ := exists_dynamic_of_mem_plainDynamic huse
  rfl

theorem calledTexts_call (object : Expr) (property : String) (kind : CallKind) (start : Nat) :
    calledTexts [.call property object.dotted? kind start] =
      (Callee.member object property).texts := by
  rw [Callee.texts]
  cases object.dotted? <;> rfl

theorem calledTexts_methodUses (object : Expr) (property : String) (start : Nat) :
    calledTexts (methodUses object property start) = (Callee.member object property).texts := by
  rw [← calledTexts_call object property .method start, methodUses]
  cases object.dotted? with
  | none => rfl
  | some path => dsimp only; split <;> rfl

theorem Expr.target_inner (e : Expr) : e.inner.target = e.target := by
  fun_induction Expr.inner e with
  | case1 wrapper inner types ih => rw [ih, Expr.target]
  | case2 e => rfl

mutual

/-- **What a call leaves in the call graph** are the texts of what it calls. -/
theorem Expr.calledTexts_calleeUses (start : Nat) (args : List Expr) : ∀ e : Expr,
    calledTexts (e.calleeUses start args) = Callee.textsOf e.target.callee?
  | .name id => by
    show id :: calledTexts (plainDynamic id start args) = [id]
    rw [calledTexts_plainDynamic]
  | .member object property => calledTexts_methodUses object property start
  | .index object key => by
    show calledTexts (match key.literal? with
      | some property => [.call property object.dotted? .computed start]
      | none => []) = Callee.textsOf (key.literal?.map (.member object))
    cases key.literal? with
    | none => rfl
    | some property => exact calledTexts_call object property .computed start
  | .sequence items => calledTexts_lastCalleeUses start args items
  | .wrapped _ inner _ => inner.calledTexts_calleeUses start args
  | .this | .string _ | .template _ _ | .call _ _ _ _ | .construct _ _ _ _ | .load _ _ _
  | .await _ | .spread _ | .other _ => rfl

theorem calledTexts_lastCalleeUses (start : Nat) (args : List Expr) : ∀ items : List Expr,
    calledTexts (lastCalleeUses start args items) = Callee.textsOf (lastTarget items).callee?
  | [] => rfl
  | [last] => by
    rw [lastCalleeUses, lastTarget]
    split
    · rename_i hinner
      rw [← last.target_inner, hinner]
      rfl
    · exact last.calledTexts_calleeUses start args
  | _ :: next :: items => calledTexts_lastCalleeUses start args (next :: items)

end

theorem calledTexts_constructUses (start : Nat) (callee : Expr) :
    calledTexts (constructUses start callee) = Callee.textsOf callee.inner.constructed? := by
  rw [constructUses]
  cases callee.inner with
  | name id => dsimp only; split <;> rfl
  | member object property => exact calledTexts_call object property .construct start
  | _ => rfl

/-- **What a node leaves in the call graph** are the texts of what it calls. -/
theorem Expr.calledTexts_ownUses (e : Expr) :
    calledTexts e.ownUses = Callee.textsOf e.calls? := by
  cases e with
  | call start callee types args => exact callee.calledTexts_calleeUses start args
  | construct start callee types args => exact calledTexts_constructUses start callee
  | member object property => rw [Expr.ownUses]; cases object.dotted? <;> rfl
  | load start source options => rw [Expr.ownUses]; split <;> rfl
  | _ => rfl

/-- The names that a module calls are the texts of what its nodes call. -/
theorem Module.mem_calledNames {locate : Nat → Location} {m : Module} {text : String} :
    text ∈ (m.callGraph locate).calledNames.toList ↔
      ∃ e ∈ m.nodes false, ∃ callee ∈ e.calls?, text ∈ callee.texts := by
  have hnodes : m.uses.flatMap Use.calledNames
      = (m.nodes false).flatMap fun e => Callee.textsOf e.calls? := by
    simp only [m.uses_eq_flatMap_nodes, List.flatMap_assoc, ← Expr.calledTexts_ownUses]
    rfl
  rw [Module.callGraph, CallGraph.ofUses, NameSet.mem_ofList, hnodes, List.mem_flatMap]
  refine exists_congr fun e => and_congr_right fun _ => ?_
  cases e.calls? <;> simp [Callee.textsOf]

/-- Some call of the module goes through the binding. -/
def Module.CallsThrough (m : Module) (binding : String) : Prop :=
  ∃ e ∈ m.nodes false, ∃ callee ∈ e.calls?, callee.GoesThrough binding

/-- Some call of the module misleads about the binding. -/
def Module.MisleadsAbout (m : Module) (binding : String) : Prop :=
  ∃ e ∈ m.nodes false, ∃ callee ∈ e.calls?, callee.Misleads binding

/-- **A path with a member after it** reads like a binding or a member of it only if it
begins with the binding. -/
theorem firstSegment_of_isOrMemberOf {binding path property : String}
    (hbinding : '.' ∉ binding.toList) (h : IsOrMemberOf binding (path ++ "." ++ property)) :
    firstSegment path.toList = binding.toList := by
  have htext : (path ++ "." ++ property).toList = path.toList ++ '.' :: property.toList := by simp
  rcases h with hself | ⟨member, hleads⟩
  · rw [← hself, htext] at hbinding
    simp at hbinding
  · obtain ⟨rest, hrest⟩ := hleads.exists_rest
    rw [htext] at hrest
    rw [← firstSegment_append_dot path.toList property.toList, hrest, firstSegment_append_dot,
      firstSegment_of_no_dot hbinding]

/-- **A text of a call that reads like a binding or a member of it** is left by a call
through the binding, or it is the last part of what is called. -/
theorem Callee.goesThrough_or_isOrMemberOf {callee : Callee} {binding text : String}
    (hbinding : '.' ∉ binding.toList) (htext : text ∈ callee.texts)
    (h : IsOrMemberOf binding text) :
    callee.GoesThrough binding ∨ IsOrMemberOf binding callee.text := by
  cases callee with
  | name id =>
    rw [texts, List.mem_singleton] at htext
    subst htext
    exact .inr h
  | member object property =>
    rcases List.mem_cons.1 htext with rfl | htext
    · exact .inr h
    · obtain ⟨path, hpath, rfl⟩ := Option.map_eq_some_iff.1 (Option.mem_toList.1 htext)
      exact .inl ⟨path, hpath, firstSegment_of_isOrMemberOf hbinding h⟩

theorem Callee.text_mem_texts (callee : Callee) : callee.text ∈ callee.texts := by
  cases callee with
  | name id => exact List.mem_singleton.2 rfl
  | member object property => exact List.mem_cons_self ..

/-- What counts as invoked is called through, or some call misleads about it. -/
theorem Module.callsThrough_or_misleadsAbout {locate : Nat → Location} {m : Module}
    {binding : String} (hbinding : '.' ∉ binding.toList)
    (h : (m.callGraph locate).isInvoked binding = true) :
    m.CallsThrough binding ∨ m.MisleadsAbout binding := by
  have hnames : ∃ text ∈ (m.callGraph locate).calledNames.toList, IsOrMemberOf binding text := by
    rcases CallGraph.isInvoked_iff.1 h with hself | ⟨full, hfull, hmember⟩
    · exact ⟨binding, hself, .inl rfl⟩
    · exact ⟨full, hfull, .inr hmember⟩
  obtain ⟨text, htext, hreads⟩ := hnames
  obtain ⟨e, he, callee, hcallee, hmem⟩ := Module.mem_calledNames.1 htext
  by_cases hthrough : callee.GoesThrough binding
  · exact .inl ⟨e, he, callee, hcallee, hthrough⟩
  · have hlast := (Callee.goesThrough_or_isOrMemberOf hbinding hmem hreads).resolve_left hthrough
    exact .inr ⟨e, he, callee, hcallee, hthrough, hlast⟩

/-- What some call misleads about counts as invoked. -/
theorem Module.isInvoked_of_misleadsAbout {locate : Nat → Location} {m : Module} {binding : String}
    (h : m.MisleadsAbout binding) : (m.callGraph locate).isInvoked binding = true := by
  obtain ⟨e, he, callee, hcallee, -, hlast⟩ := h
  have hcalled : callee.text ∈ (m.callGraph locate).calledNames.toList :=
    Module.mem_calledNames.2 ⟨e, he, callee, hcallee, callee.text_mem_texts⟩
  rcases hlast with hself | hmember
  · exact CallGraph.isInvoked_iff.2 (.inl (hself ▸ hcalled))
  · exact CallGraph.isInvoked_iff.2 (.inr ⟨_, hcalled, hmember⟩)

/-- **When an invoked binding is really called.**  For every module and every name of a
binding, which has no dot: that the binding counts as invoked entails that some call goes
through it exactly when some call does, or no call misleads, by a last part that reads
like the binding or like a member of it. -/
theorem Module.invoked_only_through_iff (locate : Nat → Location) (m : Module) (binding : String)
    (hbinding : '.' ∉ binding.toList) :
    ((m.callGraph locate).isInvoked binding = true → m.CallsThrough binding) ↔
      m.CallsThrough binding ∨ ¬ m.MisleadsAbout binding := by
  constructor
  · intro h
    by_cases hmisled : m.MisleadsAbout binding
    · exact .inl (h (Module.isInvoked_of_misleadsAbout hmisled))
    · exact .inr hmisled
  · rintro (hthrough | hclear) hinvoked
    · exact hthrough
    · exact (Module.callsThrough_or_misleadsAbout hbinding hinvoked).resolve_right hclear

instance (binding : String) : DecidablePred (Callee.GoesThrough binding)
  | .name id => inferInstanceAs (Decidable (id = binding))
  | .member object _ => inferInstanceAs (Decidable (∃ path ∈ object.dotted?, _))

/-- `(0, ns.fp.map)(x)` is a call through `ns`, and nothing misleads about it. -/
theorem Module.invoked_only_through_sequence :
    let m : Module := ⟨[.other [.expr (.call 0
      (.wrapped .parentheses (.sequence [.other [],
        .member (.member (.name "ns") "fp") "map"]) []) [] [.name "x"])]]⟩
    '.' ∉ "ns".toList ∧ (m.callGraph fun _ => default).isInvoked "ns" = true ∧
      ¬ m.MisleadsAbout "ns" ∧ m.CallsThrough "ns" := by
  intro m
  have hbinding : '.' ∉ "ns".toList := by decide
  have hinvoked : (m.callGraph fun _ => default).isInvoked "ns" = true := by decide
  have hclear : ¬ m.MisleadsAbout "ns" := by
    rintro ⟨e, he, callee, hcallee, -, hlast⟩
    have hmap : ∀ e ∈ m.nodes false, ∀ callee ∈ e.calls?, callee.text = "map" := by decide
    rw [hmap e he callee hcallee] at hlast
    rcases hlast with hself | ⟨member, hleads⟩
    · exact absurd hself (by decide)
    · obtain ⟨rest, hrest⟩ := hleads.exists_rest
      cases hrest
  exact ⟨hbinding, hinvoked, hclear,
    (Module.invoked_only_through_iff _ m "ns" hbinding).2 (.inr hclear) hinvoked⟩

/-- **A method of another object counts as a call of the binding.**  In
`import { get } from 'lodash'; axios.get('/x');` the name `get` counts as invoked, and no
call goes through it. -/
theorem Module.invoked_not_called_of_method :
    let m : Module := ⟨[.importNames 0 "lodash" false [.named "get" "get" false],
      .other [.expr (.call 29 (.member (.name "axios") "get") [] [.string "/x"])]]⟩
    (m.callGraph fun _ => default).isInvoked "get" = true ∧ ¬ m.CallsThrough "get" := by
  unfold Module.CallsThrough
  decide

end Source
end DependencyUse
