/-
# The parts of a call graph agree

The calls of a module are found from outside: of a call, the callee is looked through, under its
wrappers and behind its commas, down to a name or a member, and the path before the member is
spelled out.  The mentions are found later, when the walk comes to the same names and members by
itself.  The two agree because what a call runs is a node of the module, and so is everything on
the path to it:

| call | node | mentioned |
| --- | --- | --- |
| `f()`, `new f()` | the name `f` | `f` |
| `a.b.f()`, `new a.b.f()` | the member `f` of `a.b` | `a.b.f`, `a.b`, `a` |
| `a.b['f']()` | the member `b` of `a` | `a.b`, `a` |

A path that starts at `this` is mentioned from its first member on.  All of it is read off texts,
where a dot inside a name would pass for a step of a path; the names of a module that is read have
none (`Module.isUndotted_of_read`).
-/

import DependencyUse.Proofs.CallGraph.Invoked
import DependencyUse.Proofs.Source.Loading
import DependencyUse.Proofs.Source.Reading.Module

namespace DependencyUse

/-- What the parts of a call graph say of each other. -/
structure CallGraph.Agrees (g : CallGraph) : Prop where
  /-- the called names are the callees, and the callees after their receivers -/
  called_iff : ∀ name, name ∈ g.calledNames.toList ↔ ∃ site ∈ g.callSites,
    name = site.callee ∨ ∃ receiver ∈ site.receiver, name = receiver ++ "." ++ site.callee
  /-- what is called plainly is mentioned -/
  plain : ∀ site ∈ g.callSites, site.kind = .plain → site.callee ∈ g.referencedNames.toList
  /-- the name that a receiver starts with is mentioned -/
  root : ∀ site ∈ g.callSites, ∀ receiver ∈ site.receiver,
    String.ofList (firstSegment receiver.toList) = "this" ∨
      String.ofList (firstSegment receiver.toList) ∈ g.referencedNames.toList
  /-- a method or a constructor is mentioned after its receiver -/
  member : ∀ site ∈ g.callSites, site.kind = .method ∨ site.kind = .construct →
    ∀ receiver ∈ site.receiver, receiver ++ "." ++ site.callee ∈ g.referencedNames.toList
  /-- with a path, every path up to one of its dots is mentioned -/
  front : ∀ text ∈ g.referencedNames.toList, ∀ front rest, text = front ++ "." ++ rest →
    front = "this" ∨ front ∈ g.referencedNames.toList

namespace Source

/-! ## What a call runs is a node -/

theorem Expr.inner_mem_nodes (e : Expr) : e.inner ∈ e.nodes false := by
  fun_induction Expr.inner e with
  | case1 wrapper inner types ih => exact .tail _ (List.mem_append_left _ ih)
  | case2 e => exact e.mem_nodes_self false

mutual

theorem Expr.target_mem_nodes : ∀ e : Expr, e.target ∈ e.nodes false
  | .wrapped _ inner _ => .tail _ (List.mem_append_left _ inner.target_mem_nodes)
  | .sequence items => by
    have hlast := lastTarget_mem_nodes items
    cases items with
    | nil => exact .head _
    | cons item items => exact .tail _ (hlast (List.cons_ne_nil item items))
  | .name _ | .this | .string _ | .template _ _ | .member _ _ | .index _ _ | .call _ _ _ _
  | .construct _ _ _ _ | .load _ _ _ | .await _ | .spread _ | .other _ => .head _

theorem lastTarget_mem_nodes : ∀ items : List Expr, items ≠ [] →
    lastTarget items ∈ exprNodes false items
  | [], h => absurd rfl h
  | [last], _ => List.mem_append_left _ last.target_mem_nodes
  | _ :: next :: items, _ =>
    List.mem_append_right _ (lastTarget_mem_nodes (next :: items) (List.cons_ne_nil next items))

end

/-- The calls that run a node: the callee, the path before it, and the form. -/
inductive Runs : Expr → String → Option String → CallKind → Prop where
  | plain (id : String) : Runs (.name id) id none .plain
  | method (object : Expr) (property : String) :
      Runs (.member object property) property object.dotted? .method
  | computed {object key : Expr} {property : String} (h : key.literal? = some property) :
      Runs (.index object key) property object.dotted? .computed
  | constructName (id : String) : Runs (.name id) id none .construct
  | constructMember (object : Expr) (property : String) :
      Runs (.member object property) property object.dotted? .construct

section Runs

variable {callee : String} {receiver : Option String} {kind : CallKind} {start at_ : Nat}
  {args : List Expr}

theorem runs_of_methodUses {object : Expr} {property : String}
    (h : Use.call callee receiver kind at_ ∈ methodUses object property start) :
    Runs (.member object property) callee receiver kind := by
  have hcall : Use.call callee receiver kind at_ = .call property object.dotted? .method start := by
    rw [methodUses, List.mem_append, List.mem_singleton] at h
    refine h.resolve_left fun hdynamic => ?_
    split at hdynamic
    · split at hdynamic
      · cases List.mem_singleton.1 hdynamic
      · cases hdynamic
    · cases hdynamic
  cases hcall
  exact .method _ _

mutual

/-- A call mentions nothing by itself. -/
theorem mention_not_mem_calleeUses {text : String} : ∀ e : Expr,
    Use.mention text ∉ e.calleeUses start args
  | .name id => by
    rw [Expr.calleeUses, List.mem_cons, not_or]
    refine ⟨Use.noConfusion, fun h => ?_⟩
    obtain ⟨_, _, _, hdynamic⟩ := exists_dynamic_of_mem_plainDynamic h
    cases hdynamic
  | .member object property => by
    rw [Expr.calleeUses, methodUses]
    repeat' split
    all_goals simp
  | .index object key => by
    rw [Expr.calleeUses]
    split <;> simp
  | .sequence items => mention_not_mem_lastCalleeUses items
  | .wrapped _ inner _ => mention_not_mem_calleeUses inner
  | .this | .string _ | .template _ _ | .call _ _ _ _ | .construct _ _ _ _ | .load _ _ _
  | .await _ | .spread _ | .other _ => List.not_mem_nil

theorem mention_not_mem_lastCalleeUses {text : String} : ∀ items : List Expr,
    Use.mention text ∉ lastCalleeUses start args items
  | [] => List.not_mem_nil
  | [last] => by
    rw [lastCalleeUses]
    split
    · simp
    · exact mention_not_mem_calleeUses last
  | _ :: next :: items => mention_not_mem_lastCalleeUses (next :: items)

end

theorem mention_not_mem_constructUses {text : String} {e : Expr} :
    Use.mention text ∉ constructUses start e := by
  unfold constructUses
  repeat' split
  all_goals simp

mutual

/-- A call runs its target. -/
theorem Expr.runs_of_calleeUses : ∀ e : Expr,
    Use.call callee receiver kind at_ ∈ e.calleeUses start args →
      Runs e.target callee receiver kind
  | .name id, h => by
    rw [Expr.calleeUses] at h
    rcases List.mem_cons.1 h with h | h
    · cases h
      exact .plain _
    · obtain ⟨_, _, _, hdynamic⟩ := exists_dynamic_of_mem_plainDynamic h
      cases hdynamic
  | .member _ _, h => runs_of_methodUses h
  | .index object key, h => by
    rw [Expr.calleeUses] at h
    split at h
    · rename_i property hproperty
      cases List.mem_singleton.1 h
      exact .computed hproperty
    · cases h
  | .sequence items, h => runs_of_lastCalleeUses items h
  | .wrapped _ inner _, h => inner.runs_of_calleeUses h
  | .this, h | .string _, h | .template _ _, h | .call _ _ _ _, h | .construct _ _ _ _, h
  | .load _ _ _, h | .await _, h | .spread _, h | .other _, h => nomatch h

theorem runs_of_lastCalleeUses : ∀ items : List Expr,
    Use.call callee receiver kind at_ ∈ lastCalleeUses start args items →
      Runs (lastTarget items) callee receiver kind
  | [], h => nomatch h
  | [last], h => by
    rw [lastCalleeUses] at h
    split at h
    · rename_i hinner
      rw [lastTarget, ← last.target_inner, hinner]
      simp only [List.mem_cons, reduceCtorEq, List.not_mem_nil, or_false, false_or] at h
      cases h
      exact .plain _
    · exact last.runs_of_calleeUses h
  | _ :: next :: items, h => runs_of_lastCalleeUses (next :: items) h

end

/-- `new` runs what stands under the wrappers of its callee. -/
theorem runs_of_constructUses {e : Expr}
    (h : Use.call callee receiver kind at_ ∈ constructUses start e) :
    Runs e.inner callee receiver kind := by
  rw [constructUses] at h
  split at h
  · rename_i id hinner
    rw [List.mem_append, List.mem_singleton] at h
    rw [hinner]
    rcases h with h | h
    · split at h
      · cases List.mem_singleton.1 h
      · cases h
    · cases h
      exact .constructName _
  · rename_i object property hinner
    cases List.mem_singleton.1 h
    rw [hinner]
    exact .constructMember _ _
  · cases h

/-- What a node mentions by itself is its own path. -/
theorem Expr.dotted?_of_mention_mem_ownUses {e : Expr} {text : String}
    (h : Use.mention text ∈ e.ownUses) : e.dotted? = some text := by
  cases e with
  | name id => cases List.mem_singleton.1 h; rfl
  | member object property =>
    rw [Expr.ownUses, Option.mem_toList, Option.map_eq_some_iff] at h
    obtain ⟨path, hpath, hmention⟩ := h
    cases hmention
    rw [Expr.dotted?, hpath]
    rfl
  | call start callee types args => exact absurd h (mention_not_mem_calleeUses callee)
  | construct start callee types args => exact absurd h mention_not_mem_constructUses
  | load start source options =>
    rw [Expr.ownUses] at h
    split at h <;> simp at h
  | _ => cases h

/-- **The call of a node runs a node**, in it or itself. -/
theorem Expr.exists_runs_of_ownUses {e : Expr}
    (h : Use.call callee receiver kind at_ ∈ e.ownUses) :
    ∃ target ∈ e.nodes false, Runs target callee receiver kind := by
  cases e with
  | call start callee types args =>
    refine ⟨callee.target, .tail _ ?_, callee.runs_of_calleeUses h⟩
    exact List.mem_append_left _ (List.mem_append_left _ callee.target_mem_nodes)
  | construct start callee types args =>
    refine ⟨callee.inner, .tail _ ?_, runs_of_constructUses h⟩
    exact List.mem_append_left _ (List.mem_append_left _ callee.inner_mem_nodes)
  | name id => cases List.mem_singleton.1 h
  | member object property =>
    rw [Expr.ownUses] at h
    cases hdotted : object.dotted? <;> simp [hdotted] at h
  | load start source options =>
    rw [Expr.ownUses] at h
    split at h
    · cases List.mem_singleton.1 h
    · cases h
  | _ => cases h

end Runs

/-! ## A path is mentioned step by step -/

/-- A member of a path is mentioned. -/
theorem mention_mem_uses_member {object : Expr} {path : String} (property : String)
    (h : object.dotted? = some path) :
    Use.mention (path ++ "." ++ property) ∈ (Expr.member object property).uses := by
  rw [Expr.uses, h]
  exact .head _

/-- A path is mentioned, unless it is `this`. -/
theorem Expr.mention_of_dotted? {e : Expr} {path : String} (h : e.dotted? = some path) :
    path = "this" ∨ Use.mention path ∈ e.uses := by
  fun_induction Expr.dotted? e generalizing path with
  | case1 id => cases h; exact .inr (.head _)
  | case2 => cases h; exact .inl rfl
  | case3 object property ih =>
    obtain ⟨before, hbefore, rfl⟩ := Option.map_eq_some_iff.1 h
    exact .inr (mention_mem_uses_member property hbefore)
  | case4 wrapper inner types ih => exact ih h
  | case5 => cases h

/-- A list cut at a dot, where the part after another dot has none, is cut there or before. -/
theorem eq_or_exists_of_append_dot {front rest path property : List Char}
    (hproperty : '.' ∉ property) (h : path ++ '.' :: property = front ++ '.' :: rest) :
    front = path ∨ ∃ more, path = front ++ '.' :: more := by
  rcases List.append_eq_append_iff.1 h with ⟨more, rfl, hmore⟩ | ⟨more, rfl, hmore⟩
  · cases more with
    | nil => exact .inl (List.append_nil _)
    | cons c more =>
      rw [List.cons_append, List.cons.injEq] at hmore
      rw [hmore.2] at hproperty
      simp at hproperty
  · cases more with
    | nil => exact .inl (List.append_nil _).symm
    | cons c more =>
      rw [List.cons_append, List.cons.injEq] at hmore
      exact .inr ⟨more, by rw [hmore.1]⟩

/-- **With a path, every path up to one of its dots is mentioned.** -/
theorem Expr.mention_front_of_dotted? {e : Expr} {path front rest : String}
    (hnames : ∀ n ∈ e.nodes false, n.isUndotted = true) (h : e.dotted? = some path)
    (hfront : path = front ++ "." ++ rest) : front = "this" ∨ Use.mention front ∈ e.uses := by
  fun_induction Expr.dotted? e generalizing path rest with
  | case1 id =>
    cases h
    have hid := hnames _ (.head _)
    rw [hfront] at hid
    simp [Expr.isUndotted] at hid
  | case2 =>
    cases h
    have hdot : '.' ∈ "this".toList := by rw [hfront]; simp
    simp at hdot
  | case3 object property ih =>
    obtain ⟨before, hbefore, rfl⟩ := Option.map_eq_some_iff.1 h
    have hproperty : '.' ∉ property.toList := by
      simpa [Expr.isUndotted] using hnames _ (.head _)
    have hobject : ∀ n ∈ object.nodes false, n.isUndotted = true :=
      fun n hn => hnames n (.tail _ hn)
    have hcut := congrArg String.toList hfront
    rw [toList_append_dot, toList_append_dot] at hcut
    -- the cut is at the last dot, or before it and so in the path of the object
    have hmention : front = "this" ∨ Use.mention front ∈ object.uses := by
      rcases eq_or_exists_of_append_dot hproperty hcut with hlast | ⟨more, hmore⟩
      · rw [String.toList_injective hlast]
        exact object.mention_of_dotted? hbefore
      · have hpath : before = front ++ "." ++ String.ofList more := by
          refine String.toList_injective ?_
          rw [hmore, toList_append_dot, String.toList_ofList]
        exact ih hobject hbefore hpath
    exact hmention.imp_right fun hmem => List.mem_append_right _ hmem
  | case4 wrapper inner types ih =>
    exact ih (fun n hn => hnames n (.tail _ (List.mem_append_left _ hn))) h hfront
  | case5 => cases h

/-- **The name that a path starts with is mentioned**, unless it is `this`. -/
theorem Expr.mention_root_of_dotted? {e : Expr} {path : String}
    (hnames : ∀ n ∈ e.nodes false, n.isUndotted = true) (h : e.dotted? = some path) :
    String.ofList (firstSegment path.toList) = "this" ∨
      Use.mention (String.ofList (firstSegment path.toList)) ∈ e.uses := by
  by_cases hdot : '.' ∈ path.toList
  · obtain ⟨root, rest, hpath, hroot⟩ := List.eq_append_cons_of_mem hdot
    have hcut : path = String.ofList root ++ "." ++ String.ofList rest := by
      refine String.toList_injective ?_
      rw [hpath, toList_append_dot, String.toList_ofList, String.toList_ofList]
    rw [hpath, firstSegment_append_dot, firstSegment_of_no_dot hroot]
    exact e.mention_front_of_dotted? hnames h hcut
  · rw [firstSegment_of_no_dot hdot, String.ofList_toList]
    exact e.mention_of_dotted? h

/-! ## The parts of the call graph -/

section Graph

variable {locate : Nat → Location} {m : Module}

theorem Module.mem_referencedNames {name : String} :
    name ∈ (m.callGraph locate).referencedNames.toList ↔ Use.mention name ∈ m.uses := by
  rw [Module.callGraph, CallGraph.ofUses, NameSet.mem_ofList, List.mem_filterMap]
  constructor
  · rintro ⟨use, huse, hname⟩
    cases use with
    | mention name => cases hname; exact huse
    | call callee receiver kind start => cases hname
    | dynamic kind start context => cases hname
  · intro h
    exact ⟨_, h, rfl⟩

/-- What a node in the module uses, the module uses. -/
theorem Module.mem_uses_of_node {e : Expr} {use : Use} (he : e ∈ m.nodes false)
    (huse : use ∈ e.uses) : use ∈ m.uses := by
  rw [e.uses_eq_flatMap_nodes] at huse
  obtain ⟨n, hn, huse⟩ := List.mem_flatMap.1 huse
  rw [m.uses_eq_flatMap_nodes]
  exact List.mem_flatMap.2 ⟨n, Module.mem_nodes_trans he hn, huse⟩

/-- **Every call of the call graph runs a node of the module.** -/
theorem Module.exists_runs {site : CallSite} (h : site ∈ (m.callGraph locate).callSites) :
    ∃ e ∈ m.nodes false, Runs e site.callee site.receiver site.kind := by
  rw [(m.recordedByNodes locate).callSites] at h
  obtain ⟨e, he, hsite⟩ := List.mem_flatMap.1 h
  obtain ⟨at_, huse⟩ := Expr.exists_call_of_mem_ownCalls hsite
  obtain ⟨target, htarget, hruns⟩ := Expr.exists_runs_of_ownUses huse
  exact ⟨target, Module.mem_nodes_trans he htarget, hruns⟩

/-- The receiver of a call is the path of a node in what the call runs. -/
theorem Runs.exists_object {e : Expr} {callee path : String} {receiver : Option String}
    {kind : CallKind} (h : Runs e callee receiver kind) (hpath : receiver = some path) :
    ∃ object ∈ e.nodes false, object.dotted? = some path := by
  cases h with
  | plain id => cases hpath
  | constructName id => cases hpath
  | method object property => exact ⟨object, .tail _ (object.mem_nodes_self false), hpath⟩
  | constructMember object property => exact ⟨object, .tail _ (object.mem_nodes_self false), hpath⟩
  | @computed object key property _ =>
    exact ⟨object, .tail _ (List.mem_append_left _ (object.mem_nodes_self false)), hpath⟩

/-- The names that calls leave are the callees, and the callees after their receivers. -/
theorem Module.mem_calledNames_iff_site {name : String} :
    name ∈ (m.callGraph locate).calledNames.toList ↔ ∃ site ∈ (m.callGraph locate).callSites,
      name = site.callee ∨ ∃ receiver ∈ site.receiver, name = receiver ++ "." ++ site.callee := by
  rw [Module.callGraph, CallGraph.ofUses, NameSet.mem_ofList, List.mem_flatMap]
  constructor
  · rintro ⟨use, huse, hname⟩
    cases use with
    | call callee receiver kind start =>
      refine ⟨_, List.mem_filterMap.2 ⟨_, huse, rfl⟩, ?_⟩
      cases receiver with
      | none => exact .inl (List.mem_singleton.1 hname)
      | some receiver =>
        rcases List.mem_pair.1 hname with hname | hname
        · exact .inl hname
        · exact .inr ⟨receiver, rfl, hname⟩
    | mention name => cases hname
    | dynamic kind start context => cases hname
  · rintro ⟨site, hsite, hname⟩
    obtain ⟨use, huse, hsite⟩ := List.mem_filterMap.1 hsite
    cases use with
    | call callee receiver kind start =>
      cases hsite
      refine ⟨_, huse, ?_⟩
      rcases hname with rfl | ⟨receiver, rfl, rfl⟩
      · cases receiver <;> exact .head _
      · exact .tail _ (.head _)
    | mention name => cases hsite
    | dynamic kind start context => cases hsite

/-- The parts of the call graph of a module agree if the names in it have no dots. -/
theorem Module.agrees_of_isUndotted (locate : Nat → Location) {m : Module}
    (hnames : m.IsUndotted) : (m.callGraph locate).Agrees where
  called_iff _ := Module.mem_calledNames_iff_site
  plain := by
    intro ⟨callee, receiver, kind, location⟩ hsite hkind
    obtain ⟨e, he, hruns⟩ := Module.exists_runs hsite
    cases hkind
    cases hruns
    exact Module.mem_referencedNames.2 (Module.mem_uses_of_node he (.head _))
  root := by
    intro site hsite receiver hreceiver
    obtain ⟨e, he, hruns⟩ := Module.exists_runs hsite
    obtain ⟨object, hobject, hdotted⟩ := hruns.exists_object hreceiver
    have hnode := Module.mem_nodes_trans he hobject
    have hroot := object.mention_root_of_dotted?
      (fun n hn => hnames n (Module.mem_nodes_trans hnode hn)) hdotted
    exact hroot.imp_right fun hmem =>
      Module.mem_referencedNames.2 (Module.mem_uses_of_node hnode hmem)
  member := by
    intro ⟨callee, receiver, kind, location⟩ hsite hkind path hpath
    obtain ⟨e, he, hruns⟩ := Module.exists_runs hsite
    refine Module.mem_referencedNames.2 (Module.mem_uses_of_node he ?_)
    cases hruns with
    | plain id => cases hpath
    | constructName id => cases hpath
    | computed h => simp at hkind
    | method object property => exact mention_mem_uses_member _ hpath
    | constructMember object property => exact mention_mem_uses_member _ hpath
  front := by
    intro text htext front rest hfront
    have hmention := Module.mem_referencedNames.1 htext
    rw [m.uses_eq_flatMap_nodes] at hmention
    obtain ⟨e, he, hown⟩ := List.mem_flatMap.1 hmention
    have hcut := e.mention_front_of_dotted?
      (fun n hn => hnames n (Module.mem_nodes_trans he hn))
      (Expr.dotted?_of_mention_mem_ownUses hown) hfront
    exact hcut.imp_right fun hmem =>
      Module.mem_referencedNames.2 (Module.mem_uses_of_node he hmem)

end Graph

/-- **The parts of a call graph agree.**  For every tree whose names have no dots in them, and so
for every text that is read: the called names are exactly the callees of the calls and the callees
after their receivers; what is called plainly is mentioned; the name that a receiver starts with is
mentioned unless it is `this`; methods and constructors are mentioned after their receivers; and
with a path every shorter one is mentioned, except `this` alone. -/
theorem Module.callGraph_agrees (locate : Nat → Location) (m : Module) :
    (m.IsUndotted → (m.callGraph locate).Agrees) ∧
      ∀ language text, Module.read? language text = some m →
        m.IsUndotted ∧ (m.callGraph locate).Agrees := by
  refine ⟨Module.agrees_of_isUndotted locate, fun language text hread => ?_⟩
  have hnames := Module.isUndotted_of_read hread
  exact ⟨hnames, Module.agrees_of_isUndotted locate hnames⟩

/-- A text with three calls, one behind a comma, one under wrappers, one on `this`. -/
def calledThree : String := "(0, ns.fp.map)(x); new (a!).B(); this.c.d();"

/-- The call graph of the text with three calls. -/
theorem Module.callGraph_agrees_calledThree :
    ∃ m, Module.read? ⟨true, false, false, false⟩ calledThree = some m ∧
      (m.callGraph fun _ => default).callSites.map (fun s => (s.receiver, s.callee))
        = [(some "ns.fp", "map"), (some "a", "B"), (some "this.c", "d")] ∧
      m.IsUndotted ∧ (m.callGraph fun _ => default).Agrees := by
  have hsites : (Module.read? ⟨true, false, false, false⟩ calledThree).map (fun m =>
      (m.callGraph fun _ => default).callSites.map fun s => (s.receiver, s.callee))
        = some [(some "ns.fp", "map"), (some "a", "B"), (some "this.c", "d")] := by decide +kernel
  obtain ⟨m, hread, hm⟩ := Option.map_eq_some_iff.1 hsites
  obtain ⟨hagrees, hreads⟩ := Module.callGraph_agrees (fun _ => default) m
  have hnames := (hreads _ _ hread).1
  exact ⟨m, hread, hm, hnames, hagrees hnames⟩

end Source
end DependencyUse
