/-
# What evidence says

Evidence is a sum of pieces.  A flag of the sum is set exactly when some piece sets it
(`IsFlag.sum_iff`), so what the whole evidence says can be read off single imports and
single chains:

| piece | says that the component is used when |
| --- | --- |
| an import that names it | `ImportRecord.UsedIn` the call graph of its file |
| a chain that ends at it | some binding is `ReexportChain.CalledThrough` |

The two predicates are stated on the call graph alone.  A chain says less than an import:
a module that is called itself counts as used where it is imported, and not where it comes
through `export * as` (`ReexportChain.ForwardsUnopened`).
-/

import DependencyUse.Verdict.Evidence

namespace DependencyUse

/-- A binding is used: the module or its default is called, called through a member or
mentioned; a name is called, or called through a member. -/
def BoundName.UsedIn (g : CallGraph) (b : BoundName) : Prop :=
  b.isWholeModule = true ∧
      (g.isCalled b.localName = true ∨ g.calledMembers b.localName ≠ [] ∨
        g.isReferenced b.localName = true) ∨
    b.isWholeModule = false ∧ g.isInvoked b.localName = true

/-- An import is used: a binding is, or it is an `import()` that binds nothing.  A
re-export is no use. -/
def ImportRecord.UsedIn (g : CallGraph) (r : ImportRecord) : Prop :=
  r.isReexport = false ∧ ((∃ b ∈ r.names, b.UsedIn g) ∨ r.names = [] ∧ r.kind = .dynamic)

/-- A chain forwards what is called.  Where a whole module is bound, that is a member that
the chain forwards; otherwise the chain forwards the name of the binding, and the binding
or a member of it is called. -/
def ReexportChain.ForwardsCall (chain : ReexportChain) (g : CallGraph) (b : BoundName) : Prop :=
  b.isWhole = true ∧ (∃ member ∈ g.calledMembers b.localName,
      (chain.originName? member).isSome = true) ∨
    b.isWhole = false ∧ (chain.originName? b.imported).isSome = true ∧
      g.isInvoked b.localName = true

/-- The chain forwards a whole module under the name of the binding, and no member of that
module is called: if anything is, it is the module itself. -/
def ReexportChain.ForwardsUnopened (chain : ReexportChain) (g : CallGraph) (b : BoundName) :
    Prop :=
  b.isWhole = false ∧ chain.originName? b.imported = some BoundName.wholeName ∧
    g.calledMembers b.localName = []

/-- A call is seen through a chain: the chain forwards what is called, and that is not a
whole module itself. -/
def ReexportChain.CalledThrough (chain : ReexportChain) (g : CallGraph) (b : BoundName) : Prop :=
  chain.ForwardsCall g b ∧ ¬ chain.ForwardsUnopened g b

/-- What is called through a member is invoked. -/
theorem CallGraph.isInvoked_of_calledMembers {g : CallGraph} {name : String}
    (h : g.calledMembers name ≠ []) : g.isInvoked name = true := by
  rw [isInvoked, List.isEmpty_eq_false_iff.2 h]
  exact Bool.or_true _

namespace Evidence

/-- A fact about evidence that holds of a sum when it holds of one side. -/
structure IsFlag (f : Evidence → Bool) : Prop where
  empty : f {} = false
  append (a b : Evidence) : f (a ++ b) = (f a || f b)

/-- **A flag of a sum is set by one of its pieces.** -/
theorem IsFlag.sum_iff {f : Evidence → Bool} (hf : IsFlag f) (pieces : List Evidence) :
    f (sum pieces) = true ↔ ∃ e ∈ pieces, f e = true := by
  induction pieces with
  | nil => simp [sum, hf.empty]
  | cons e es ih =>
    show f (e ++ sum es) = true ↔ _
    simp [hf.append, ih]

theorem IsFlag.sum_map_iff {α : Type} {f : Evidence → Bool} (hf : IsFlag f) (xs : List α)
    (piece : α → Evidence) : f (sum (xs.map piece)) = true ↔ ∃ x ∈ xs, f (piece x) = true := by
  rw [hf.sum_iff]
  constructor
  · rintro ⟨e, he, hset⟩
    obtain ⟨x, hx, rfl⟩ := List.mem_map.1 he
    exact ⟨x, hx, hset⟩
  · rintro ⟨x, hx, hset⟩
    exact ⟨piece x, List.mem_map_of_mem hx, hset⟩

theorem isFlag_directImport : IsFlag directImport := ⟨rfl, fun _ _ => rfl⟩

theorem isFlag_chain : IsFlag chain := ⟨rfl, fun _ _ => rfl⟩

/-- The evidence says that the component is used. -/
def showsUse (e : Evidence) : Bool :=
  e.namedCall || (e.wholeModuleUse || e.dynamicLoad || e.barrelCall)

theorem isFlag_showsUse : IsFlag showsUse where
  empty := rfl
  append a b := by
    show (a.namedCall || b.namedCall || (a.wholeModuleUse || b.wholeModuleUse ||
      (a.dynamicLoad || b.dynamicLoad) || (a.barrelCall || b.barrelCall))) = _
    simp only [showsUse]
    cases a.namedCall <;> cases a.wholeModuleUse <;> cases a.dynamicLoad <;>
      cases a.barrelCall <;> simp

theorem showsUse_ofWholeModule_iff {c : Component} {g : CallGraph} {r : ImportRecord}
    {b : BoundName} :
    (ofWholeModule c g r b).showsUse = true ↔
      g.isCalled b.localName = true ∨ g.calledMembers b.localName ≠ [] ∨
        g.isReferenced b.localName = true := by
  rw [ofWholeModule, ← List.isEmpty_eq_false_iff]
  cases hself : g.isCalled b.localName with
  | true => simp [showsUse]
  | false =>
    cases hmembers : (g.calledMembers b.localName).isEmpty with
    | false => simp [showsUse]
    | true => cases hmention : g.isReferenced b.localName <;> simp [showsUse]

theorem showsUse_ofNamed_iff {g : CallGraph} {b : BoundName} :
    (ofNamed g b).showsUse = true ↔ g.isInvoked b.localName = true := by
  rw [ofNamed]
  cases g.isInvoked b.localName with
  | true => simp [showsUse]
  | false => cases g.isReferenced b.localName <;> simp [showsUse]

theorem showsUse_ofBinding_iff {c : Component} {g : CallGraph} {r : ImportRecord} {b : BoundName} :
    (ofBinding c g r b).showsUse = true ↔ b.UsedIn g := by
  rw [ofBinding, BoundName.UsedIn]
  cases b.isWholeModule with
  | true => simp [showsUse_ofWholeModule_iff]
  | false => simp [showsUse_ofNamed_iff]

theorem showsUse_ofUnbound_iff {r : ImportRecord} :
    (ofUnbound r).showsUse = true ↔ r.kind = .dynamic := by
  rw [ofUnbound]
  split
  · rename_i hkind; simp [showsUse, hkind]
  · rename_i hkind; simp [showsUse, hkind]

/-- **What a direct import says.** -/
theorem showsUse_ofDirect_iff {c : Component} {g : CallGraph} {i : Nat} {r : ImportRecord} :
    (ofDirect c g i r).showsUse = true ↔ r.UsedIn g := by
  have hseen : ({ directImport := true } ++ saw i r : Evidence).showsUse = false := rfl
  rw [ofDirect, ImportRecord.UsedIn]
  cases hre : r.isReexport with
  | true => simp [hseen]
  | false =>
    cases hnames : r.names with
    | nil =>
      show (_ ++ ofUnbound r).showsUse = true ↔ _
      rw [isFlag_showsUse.append, hseen, Bool.false_or, showsUse_ofUnbound_iff]
      simp
    | cons b bs =>
      show (_ ++ sum ((b :: bs).map (ofBinding c g r))).showsUse = true ↔ _
      rw [isFlag_showsUse.append, hseen, Bool.false_or, isFlag_showsUse.sum_map_iff]
      simp [showsUse_ofBinding_iff]

theorem throughChain_ne_nil_iff {chain : ReexportChain} {members : List String} :
    throughChain chain members ≠ [] ↔
      ∃ member ∈ members, (chain.originName? member).isSome = true := by
  rw [throughChain, ne_eq, List.filterMap_eq_nil_iff]
  simp [Option.isSome_iff_ne_none]

theorem showsUse_ofChainBinding_iff {chain : ReexportChain} {g : CallGraph} {b : BoundName} :
    (ofChainBinding chain g b).showsUse = true ↔ chain.CalledThrough g b := by
  rw [ofChainBinding, ReexportChain.CalledThrough, ReexportChain.ForwardsCall,
    ReexportChain.ForwardsUnopened]
  cases hwhole : b.isWhole with
  | true => simp [showsUse, ← throughChain_ne_nil_iff]
  | false =>
    cases horigin : chain.originName? b.imported with
    | none => simp [showsUse]
    | some origin =>
      by_cases hmodule : origin = BoundName.wholeName
      · -- only the members of a forwarded module are looked at
        have hinvoked : ¬ g.calledMembers b.localName = [] → g.isInvoked b.localName = true :=
          CallGraph.isInvoked_of_calledMembers
        simpa [showsUse, hmodule] using hinvoked
      · cases hinvoked : g.isInvoked b.localName with
        | true => simp [showsUse, hmodule]
        | false => cases g.isReferenced b.localName <;> simp [showsUse, hmodule]

/-- **What a chain says.** -/
theorem showsUse_ofChain_iff {g : CallGraph} {i : Nat} {r : ImportRecord} {chain : ReexportChain} :
    (ofChain g i r chain).showsUse = true ↔ ∃ b ∈ r.names, chain.CalledThrough g b := by
  show (_ ++ sum (r.names.map (ofChainBinding chain g))).showsUse = true ↔ _
  rw [isFlag_showsUse.append, Bool.or_eq_true, isFlag_showsUse.sum_map_iff]
  simp only [showsUse_ofChainBinding_iff]
  exact or_iff_right Bool.false_ne_true

theorem IsFlag.sum_map_eq_false {α : Type} {f : Evidence → Bool} (hf : IsFlag f) {xs : List α}
    {piece : α → Evidence} (h : ∀ x ∈ xs, f (piece x) = false) :
    f (sum (xs.map piece)) = false := by
  rw [Bool.eq_false_iff]
  intro hset
  obtain ⟨x, hx, hpiece⟩ := (hf.sum_map_iff xs piece).1 hset
  rw [h x hx] at hpiece
  cases hpiece

theorem directImport_ofDirect (c : Component) (g : CallGraph) (i : Nat) (r : ImportRecord) :
    (ofDirect c g i r).directImport = true := by
  unfold ofDirect
  split
  · rfl
  · split <;> rfl

/-- A chain counts as one, and as no direct import. -/
theorem flags_ofChain (g : CallGraph) (i : Nat) (r : ImportRecord) (chain : ReexportChain) :
    (ofChain g i r chain).chain = true ∧ (ofChain g i r chain).directImport = false := by
  have hbinding : ∀ b ∈ r.names, (ofChainBinding chain g b).directImport = false := by
    intro b _
    unfold ofChainBinding
    repeat' split
    all_goals rfl
  refine ⟨rfl, ?_⟩
  show (_ ++ sum (r.names.map (ofChainBinding chain g))).directImport = false
  rw [isFlag_directImport.append, isFlag_directImport.sum_map_eq_false hbinding]
  rfl

end Evidence
end DependencyUse
