/-
# Trees that stand in a text

A tree stands between two offsets of a text if its pieces do so one after the other, and
every name in it is a word of the text.

| piece | takes up |
| --- | --- |
| a name, `this`, a string | a byte at least |
| a template, `await`, `...`, `<T>e` | a byte at least before what is inside |
| a call | what its callee takes up from its own start on |
| `new`, `import(…)` | a byte at least after its own start |
| everything else | what its parts take up in their order |

The offsets of such a tree can be those of a text (`Expr.Spans.endsBy`), and no name in it
has a dot (`Expr.Spans.isUndotted`).  Both bounds may be moved outwards (`Expr.Spans.mono`).
-/

import DependencyUse.Proofs.Source.Sites
import Mathlib.Order.Nat

namespace DependencyUse
namespace Source

mutual

/-- The expression stands between two offsets. -/
def Expr.Spans : Expr → Nat → Nat → Prop
  | .name id, lo, hi => '.' ∉ id.toList ∧ lo < hi
  | .this, lo, hi | .string _, lo, hi => lo < hi
  | .template _ values, lo, hi => SpanExprs values (lo + 1) hi
  | .member object property, lo, hi => '.' ∉ property.toList ∧ object.Spans lo hi
  | .index object key, lo, hi => ∃ mid, object.Spans lo mid ∧ key.Spans mid hi
  | .call start callee types args, lo, hi =>
    lo ≤ start ∧ ∃ mid, callee.Spans start mid ∧ ∃ mid', SpanParts types mid mid' ∧
      SpanExprs args mid' hi
  | .construct start callee types args, lo, hi =>
    lo ≤ start ∧ ∃ mid, callee.Spans (start + 1) mid ∧ ∃ mid', SpanParts types mid mid' ∧
      SpanExprs args mid' hi
  | .load start source options, lo, hi =>
    lo ≤ start ∧ ∃ mid, source.Spans (start + 1) mid ∧ SpanExprs options mid hi
  | .sequence items, lo, hi => SpanExprs items lo hi
  | .wrapped .assertion inner types, lo, hi =>
    ∃ mid, SpanParts types (lo + 1) mid ∧ inner.Spans mid hi
  | .wrapped _ inner types, lo, hi => ∃ mid, inner.Spans lo mid ∧ SpanParts types mid hi
  | .await operand, lo, hi | .spread operand, lo, hi => operand.Spans (lo + 1) hi
  | .other parts, lo, hi => SpanParts parts lo hi

/-- The expressions stand between two offsets, one after the other. -/
def SpanExprs : List Expr → Nat → Nat → Prop
  | [], lo, hi => lo ≤ hi
  | e :: es, lo, hi => ∃ mid, e.Spans lo mid ∧ SpanExprs es mid hi

/-- The part stands between two offsets. -/
def Part.Spans : Part → Nat → Nat → Prop
  | .expr e, lo, hi => e.Spans lo hi
  | .types parts, lo, hi => SpanParts parts lo hi
  | .declarator start _ parts init, lo, hi =>
    lo ≤ start ∧ ∃ mid, SpanParts parts start mid ∧ init.Spans mid hi

/-- The parts stand between two offsets, one after the other. -/
def SpanParts : List Part → Nat → Nat → Prop
  | [], lo, hi => lo ≤ hi
  | p :: ps, lo, hi => ∃ mid, p.Spans lo mid ∧ SpanParts ps mid hi

end

/-- The statement stands between two offsets. -/
def Item.Spans : Item → Nat → Nat → Prop
  | .importNames start _ _ _, lo, hi | .importRequire start _ _ _, lo, hi
  | .reexport start _ _ _, lo, hi | .reexportAll start _ _ _, lo, hi => lo ≤ start ∧ start < hi
  | .importAlias root, lo, hi => '.' ∉ root.toList ∧ lo < hi
  | .other parts, lo, hi => SpanParts parts lo hi

/-! ## Moving the bounds outwards -/

mutual

theorem Expr.Spans.mono : ∀ {e : Expr} {lo hi lo' hi' : Nat}, e.Spans lo hi → lo' ≤ lo → hi ≤ hi' →
    e.Spans lo' hi'
  | .name _, _, _, _, _, h, hlo, hhi => by
    simp only [Expr.Spans] at h ⊢
    exact ⟨h.1, by omega⟩
  | .this, _, _, _, _, h, hlo, hhi | .string _, _, _, _, _, h, hlo, hhi => by
    simp only [Expr.Spans] at h ⊢
    omega
  | .template _ _, _, _, _, _, h, hlo, hhi => by
    simp only [Expr.Spans] at h ⊢
    exact SpanExprs.mono h (by omega) hhi
  | .member _ _, _, _, _, _, h, hlo, hhi => by
    simp only [Expr.Spans] at h ⊢
    exact ⟨h.1, h.2.mono hlo hhi⟩
  | .index _ _, _, _, _, _, h, hlo, hhi => by
    simp only [Expr.Spans] at h ⊢
    obtain ⟨mid, hobject, hkey⟩ := h
    exact ⟨mid, hobject.mono hlo mid.le_refl, hkey.mono mid.le_refl hhi⟩
  | .call _ _ _ _, _, _, _, _, h, hlo, hhi | .construct _ _ _ _, _, _, _, _, h, hlo, hhi => by
    simp only [Expr.Spans] at h ⊢
    obtain ⟨hstart, mid, hcallee, mid', htypes, hargs⟩ := h
    exact ⟨hlo.trans hstart, mid, hcallee, mid', htypes, SpanExprs.mono hargs mid'.le_refl hhi⟩
  | .load _ _ _, _, _, _, _, h, hlo, hhi => by
    simp only [Expr.Spans] at h ⊢
    obtain ⟨hstart, mid, hsource, hoptions⟩ := h
    exact ⟨hlo.trans hstart, mid, hsource, SpanExprs.mono hoptions mid.le_refl hhi⟩
  | .sequence _, _, _, _, _, h, hlo, hhi => by
    simp only [Expr.Spans] at h ⊢
    exact SpanExprs.mono h hlo hhi
  | .wrapped .assertion _ _, _, _, _, _, h, hlo, hhi => by
    simp only [Expr.Spans] at h ⊢
    obtain ⟨mid, htypes, hinner⟩ := h
    exact ⟨mid, SpanParts.mono htypes (by omega) mid.le_refl, hinner.mono mid.le_refl hhi⟩
  | .wrapped .parentheses _ _, _, _, _, _, h, hlo, hhi
  | .wrapped .asType _ _, _, _, _, _, h, hlo, hhi
  | .wrapped .satisfies _ _, _, _, _, _, h, hlo, hhi
  | .wrapped .nonNull _ _, _, _, _, _, h, hlo, hhi
  | .wrapped .instantiation _ _, _, _, _, _, h, hlo, hhi => by
    simp only [Expr.Spans] at h ⊢
    obtain ⟨mid, hinner, htypes⟩ := h
    exact ⟨mid, hinner.mono hlo mid.le_refl, SpanParts.mono htypes mid.le_refl hhi⟩
  | .await _, _, _, _, _, h, hlo, hhi | .spread _, _, _, _, _, h, hlo, hhi => by
    simp only [Expr.Spans] at h ⊢
    exact h.mono (by omega) hhi
  | .other _, _, _, _, _, h, hlo, hhi => by
    simp only [Expr.Spans] at h ⊢
    exact SpanParts.mono h hlo hhi

theorem SpanExprs.mono : ∀ {es : List Expr} {lo hi lo' hi' : Nat}, SpanExprs es lo hi →
    lo' ≤ lo → hi ≤ hi' → SpanExprs es lo' hi'
  | [], _, _, _, _, h, hlo, hhi => by
    simp only [SpanExprs] at h ⊢
    omega
  | _ :: _, _, _, _, _, h, hlo, hhi => by
    simp only [SpanExprs] at h ⊢
    obtain ⟨mid, hfirst, hrest⟩ := h
    exact ⟨mid, hfirst.mono hlo mid.le_refl, SpanExprs.mono hrest mid.le_refl hhi⟩

theorem Part.Spans.mono : ∀ {p : Part} {lo hi lo' hi' : Nat}, p.Spans lo hi → lo' ≤ lo → hi ≤ hi' →
    p.Spans lo' hi'
  | .expr _, _, _, _, _, h, hlo, hhi => by
    simp only [Part.Spans] at h ⊢
    exact h.mono hlo hhi
  | .types _, _, _, _, _, h, hlo, hhi => by
    simp only [Part.Spans] at h ⊢
    exact SpanParts.mono h hlo hhi
  | .declarator _ _ _ _, _, _, _, _, h, hlo, hhi => by
    simp only [Part.Spans] at h ⊢
    obtain ⟨hstart, mid, hparts, hinit⟩ := h
    exact ⟨hlo.trans hstart, mid, hparts, hinit.mono mid.le_refl hhi⟩

theorem SpanParts.mono : ∀ {ps : List Part} {lo hi lo' hi' : Nat}, SpanParts ps lo hi →
    lo' ≤ lo → hi ≤ hi' → SpanParts ps lo' hi'
  | [], _, _, _, _, h, hlo, hhi => by
    simp only [SpanParts] at h ⊢
    omega
  | _ :: _, _, _, _, _, h, hlo, hhi => by
    simp only [SpanParts] at h ⊢
    obtain ⟨mid, hfirst, hrest⟩ := h
    exact ⟨mid, hfirst.mono hlo mid.le_refl, SpanParts.mono hrest mid.le_refl hhi⟩

end

/-! ## The bounds are in order -/

mutual

theorem Expr.Spans.le : ∀ {e : Expr} {lo hi : Nat}, e.Spans lo hi → lo ≤ hi
  | .name _, _, _, h => by
    simp only [Expr.Spans] at h
    exact h.2.le
  | .this, _, _, h | .string _, _, _, h => by
    simp only [Expr.Spans] at h
    exact h.le
  | .template _ _, _, _, h => by
    simp only [Expr.Spans] at h
    exact (Nat.le_succ _).trans (SpanExprs.le h)
  | .member _ _, _, _, h => by
    simp only [Expr.Spans] at h
    exact h.2.le
  | .index _ _, _, _, h => by
    simp only [Expr.Spans] at h
    obtain ⟨mid, hobject, hkey⟩ := h
    exact hobject.le.trans hkey.le
  | .call _ _ _ _, _, _, h => by
    simp only [Expr.Spans] at h
    obtain ⟨hstart, mid, hcallee, mid', htypes, hargs⟩ := h
    exact hstart.trans (hcallee.le.trans ((SpanParts.le htypes).trans (SpanExprs.le hargs)))
  | .construct start _ _ _, _, _, h => by
    simp only [Expr.Spans] at h
    obtain ⟨hstart, mid, hcallee, mid', htypes, hargs⟩ := h
    have hinner := hcallee.le.trans ((SpanParts.le htypes).trans (SpanExprs.le hargs))
    exact hstart.trans ((Nat.le_succ start).trans hinner)
  | .load start _ _, _, _, h => by
    simp only [Expr.Spans] at h
    obtain ⟨hstart, mid, hsource, hoptions⟩ := h
    exact hstart.trans ((Nat.le_succ start).trans (hsource.le.trans (SpanExprs.le hoptions)))
  | .sequence _, _, _, h => by
    simp only [Expr.Spans] at h
    exact SpanExprs.le h
  | .wrapped .assertion _ _, _, _, h => by
    simp only [Expr.Spans] at h
    obtain ⟨mid, htypes, hinner⟩ := h
    exact (Nat.le_succ _).trans ((SpanParts.le htypes).trans hinner.le)
  | .wrapped .parentheses _ _, _, _, h | .wrapped .asType _ _, _, _, h
  | .wrapped .satisfies _ _, _, _, h | .wrapped .nonNull _ _, _, _, h
  | .wrapped .instantiation _ _, _, _, h => by
    simp only [Expr.Spans] at h
    obtain ⟨mid, hinner, htypes⟩ := h
    exact hinner.le.trans (SpanParts.le htypes)
  | .await _, _, _, h | .spread _, _, _, h => by
    simp only [Expr.Spans] at h
    exact (Nat.le_succ _).trans h.le
  | .other _, _, _, h => by
    simp only [Expr.Spans] at h
    exact SpanParts.le h

theorem SpanExprs.le : ∀ {es : List Expr} {lo hi : Nat}, SpanExprs es lo hi → lo ≤ hi
  | [], _, _, h => by simpa only [SpanExprs] using h
  | _ :: _, _, _, h => by
    simp only [SpanExprs] at h
    obtain ⟨mid, hfirst, hrest⟩ := h
    exact hfirst.le.trans (SpanExprs.le hrest)

theorem Part.Spans.le : ∀ {p : Part} {lo hi : Nat}, p.Spans lo hi → lo ≤ hi
  | .expr _, _, _, h => by
    simp only [Part.Spans] at h
    exact h.le
  | .types _, _, _, h => by
    simp only [Part.Spans] at h
    exact SpanParts.le h
  | .declarator _ _ _ _, _, _, h => by
    simp only [Part.Spans] at h
    obtain ⟨hstart, mid, hparts, hinit⟩ := h
    exact hstart.trans ((SpanParts.le hparts).trans hinit.le)

theorem SpanParts.le : ∀ {ps : List Part} {lo hi : Nat}, SpanParts ps lo hi → lo ≤ hi
  | [], _, _, h => by simpa only [SpanParts] using h
  | _ :: _, _, _, h => by
    simp only [SpanParts] at h
    obtain ⟨mid, hfirst, hrest⟩ := h
    exact hfirst.le.trans (SpanParts.le hrest)

end

/-! ## What stands in a text is laid out -/

/-- There is an offset, and it is not after `hi`. -/
def EndsBy (offset : Option Nat) (hi : Nat) : Prop :=
  ∃ mid, offset = some mid ∧ mid ≤ hi

theorem EndsBy.bind {offset : Option Nat} {rest : Nat → Option Nat} {mid hi : Nat}
    (h : EndsBy offset mid) (hrest : ∀ m ≤ mid, EndsBy (rest m) hi) :
    EndsBy (offset.bind rest) hi := by
  obtain ⟨m, rfl, hm⟩ := h
  exact hrest m hm

theorem EndsBy.reach {rest : Nat → Option Nat} {lo start hi : Nat} (hlo : lo ≤ start)
    (h : EndsBy (rest start) hi) : EndsBy ((reach? lo start).bind rest) hi := by
  rwa [reach?_eq_some_iff.2 ⟨hlo, rfl⟩]

mutual

/-- **The layout of an expression that stands in a text** ends where the expression does, or
before. -/
theorem Expr.Spans.endsBy : ∀ {e : Expr} {lo hi : Nat}, e.Spans lo hi → EndsBy (e.layout? lo) hi
  | .name _, lo, _, h => by
    simp only [Expr.Spans] at h
    exact ⟨lo + 1, by rw [Expr.layout?], h.2⟩
  | .this, lo, _, h | .string _, lo, _, h => by
    simp only [Expr.Spans] at h
    exact ⟨lo + 1, by rw [Expr.layout?], h⟩
  | .template _ _, _, _, h => by
    simp only [Expr.Spans, Expr.layout?] at h ⊢
    exact SpanExprs.endsBy h
  | .member _ _, _, _, h => by
    simp only [Expr.Spans, Expr.layout?] at h ⊢
    exact h.2.endsBy
  | .index _ _, _, _, h => by
    simp only [Expr.Spans, Expr.layout?] at h ⊢
    obtain ⟨mid, hobject, hkey⟩ := h
    exact hobject.endsBy.bind fun m hm => (hkey.mono hm (Nat.le_refl _)).endsBy
  | .call _ _ _ _, _, _, h | .construct _ _ _ _, _, _, h => by
    simp only [Expr.Spans, Expr.layout?] at h ⊢
    obtain ⟨hstart, mid, hcallee, mid', htypes, hargs⟩ := h
    refine .reach hstart (hcallee.endsBy.bind fun m hm => ?_)
    refine EndsBy.bind (SpanParts.endsBy (htypes.mono hm mid'.le_refl)) fun m' hm' => ?_
    exact SpanExprs.endsBy (hargs.mono hm' (Nat.le_refl _))
  | .load _ _ _, _, _, h => by
    simp only [Expr.Spans, Expr.layout?] at h ⊢
    obtain ⟨hstart, mid, hsource, hoptions⟩ := h
    refine .reach hstart (hsource.endsBy.bind fun m hm => ?_)
    exact SpanExprs.endsBy (hoptions.mono hm (Nat.le_refl _))
  | .sequence _, _, _, h => by
    simp only [Expr.Spans, Expr.layout?] at h ⊢
    exact SpanExprs.endsBy h
  | .wrapped .assertion _ _, _, _, h => by
    simp only [Expr.Spans, Expr.layout?] at h ⊢
    obtain ⟨mid, htypes, hinner⟩ := h
    exact EndsBy.bind (SpanParts.endsBy htypes) fun m hm => (hinner.mono hm (Nat.le_refl _)).endsBy
  | .wrapped .parentheses _ _, _, _, h | .wrapped .asType _ _, _, _, h
  | .wrapped .satisfies _ _, _, _, h | .wrapped .nonNull _ _, _, _, h
  | .wrapped .instantiation _ _, _, _, h => by
    simp only [Expr.Spans, Expr.layout?] at h ⊢
    obtain ⟨mid, hinner, htypes⟩ := h
    exact hinner.endsBy.bind fun m hm => SpanParts.endsBy (htypes.mono hm (Nat.le_refl _))
  | .await _, _, _, h | .spread _, _, _, h => by
    simp only [Expr.Spans, Expr.layout?] at h ⊢
    exact h.endsBy
  | .other _, _, _, h => by
    simp only [Expr.Spans, Expr.layout?] at h ⊢
    exact SpanParts.endsBy h

theorem SpanExprs.endsBy : ∀ {es : List Expr} {lo hi : Nat}, SpanExprs es lo hi →
    EndsBy (layoutExprs? es lo) hi
  | [], lo, _, h => ⟨lo, by rw [layoutExprs?], by simpa only [SpanExprs] using h⟩
  | _ :: _, _, _, h => by
    simp only [SpanExprs, layoutExprs?] at h ⊢
    obtain ⟨mid, hfirst, hrest⟩ := h
    exact hfirst.endsBy.bind fun m hm => SpanExprs.endsBy (hrest.mono hm (Nat.le_refl _))

theorem Part.Spans.endsBy : ∀ {p : Part} {lo hi : Nat}, p.Spans lo hi → EndsBy (p.layout? lo) hi
  | .expr _, _, _, h => by
    simp only [Part.Spans, Part.layout?] at h ⊢
    exact h.endsBy
  | .types _, _, _, h => by
    simp only [Part.Spans, Part.layout?] at h ⊢
    exact SpanParts.endsBy h
  | .declarator _ _ _ _, _, _, h => by
    simp only [Part.Spans, Part.layout?] at h ⊢
    obtain ⟨hstart, mid, hparts, hinit⟩ := h
    refine .reach hstart (EndsBy.bind (SpanParts.endsBy hparts) fun m hm => ?_)
    exact (hinit.mono hm (Nat.le_refl _)).endsBy

theorem SpanParts.endsBy : ∀ {ps : List Part} {lo hi : Nat}, SpanParts ps lo hi →
    EndsBy (layoutParts? ps lo) hi
  | [], lo, _, h => ⟨lo, by rw [layoutParts?], by simpa only [SpanParts] using h⟩
  | _ :: _, _, _, h => by
    simp only [SpanParts, layoutParts?] at h ⊢
    obtain ⟨mid, hfirst, hrest⟩ := h
    exact hfirst.endsBy.bind fun m hm => SpanParts.endsBy (hrest.mono hm (Nat.le_refl _))

end

/-! ## Names that stand in a text have no dots -/

mutual

/-- **No name of an expression that stands in a text has a dot in it.** -/
theorem Expr.Spans.isUndotted : ∀ {e : Expr} {lo hi : Nat}, e.Spans lo hi →
    ∀ n ∈ e.nodes false, n.isUndotted = true
  | .name _, _, _, h => by
    simp only [Expr.Spans] at h
    simpa [Expr.nodes, Expr.isUndotted] using h.1
  | .this, _, _, _ | .string _, _, _, _ => by simp [Expr.nodes, Expr.isUndotted]
  | .template _ _, _, _, h | .sequence _, _, _, h => by
    simp only [Expr.Spans, Expr.nodes] at h ⊢
    exact List.forall_mem_cons.2 ⟨rfl, SpanExprs.isUndotted h⟩
  | .member _ _, _, _, h => by
    simp only [Expr.Spans, Expr.nodes] at h ⊢
    exact List.forall_mem_cons.2 ⟨by simpa [Expr.isUndotted] using h.1, h.2.isUndotted⟩
  | .index _ _, _, _, h => by
    simp only [Expr.Spans, Expr.nodes] at h ⊢
    obtain ⟨mid, hobject, hkey⟩ := h
    exact List.forall_mem_cons.2
      ⟨rfl, List.forall_mem_append.2 ⟨hobject.isUndotted, hkey.isUndotted⟩⟩
  | .call _ _ _ _, _, _, h | .construct _ _ _ _, _, _, h => by
    simp only [Expr.Spans, Expr.nodes, Bool.false_eq_true, if_false, List.append_nil] at h ⊢
    obtain ⟨-, mid, hcallee, mid', -, hargs⟩ := h
    exact List.forall_mem_cons.2
      ⟨rfl, List.forall_mem_append.2 ⟨hcallee.isUndotted, SpanExprs.isUndotted hargs⟩⟩
  | .load _ _ _, _, _, h => by
    simp only [Expr.Spans, Expr.nodes] at h ⊢
    obtain ⟨-, mid, hsource, hoptions⟩ := h
    exact List.forall_mem_cons.2
      ⟨rfl, List.forall_mem_append.2 ⟨hsource.isUndotted, SpanExprs.isUndotted hoptions⟩⟩
  | .wrapped .assertion _ _, _, _, h => by
    simp only [Expr.Spans, Expr.nodes, Bool.false_eq_true, if_false, List.append_nil] at h ⊢
    obtain ⟨mid, -, hinner⟩ := h
    exact List.forall_mem_cons.2 ⟨rfl, hinner.isUndotted⟩
  | .wrapped .parentheses _ _, _, _, h | .wrapped .asType _ _, _, _, h
  | .wrapped .satisfies _ _, _, _, h | .wrapped .nonNull _ _, _, _, h
  | .wrapped .instantiation _ _, _, _, h => by
    simp only [Expr.Spans, Expr.nodes, Bool.false_eq_true, if_false, List.append_nil] at h ⊢
    obtain ⟨mid, hinner, -⟩ := h
    exact List.forall_mem_cons.2 ⟨rfl, hinner.isUndotted⟩
  | .await _, _, _, h | .spread _, _, _, h => by
    simp only [Expr.Spans, Expr.nodes] at h ⊢
    exact List.forall_mem_cons.2 ⟨rfl, h.isUndotted⟩
  | .other _, _, _, h => by
    simp only [Expr.Spans, Expr.nodes] at h ⊢
    exact List.forall_mem_cons.2 ⟨rfl, SpanParts.isUndotted h⟩

theorem SpanExprs.isUndotted : ∀ {es : List Expr} {lo hi : Nat}, SpanExprs es lo hi →
    ∀ n ∈ exprNodes false es, n.isUndotted = true
  | [], _, _, _ => by simp [exprNodes]
  | _ :: _, _, _, h => by
    simp only [SpanExprs, exprNodes] at h ⊢
    obtain ⟨mid, hfirst, hrest⟩ := h
    exact List.forall_mem_append.2 ⟨hfirst.isUndotted, SpanExprs.isUndotted hrest⟩

theorem Part.Spans.isUndotted : ∀ {p : Part} {lo hi : Nat}, p.Spans lo hi →
    ∀ n ∈ p.nodes false, n.isUndotted = true
  | .expr _, _, _, h => by
    simp only [Part.Spans, Part.nodes] at h ⊢
    exact h.isUndotted
  | .types _, _, _, _ => by simp [Part.nodes]
  | .declarator _ _ _ _, _, _, h => by
    simp only [Part.Spans, Part.nodes] at h ⊢
    obtain ⟨-, mid, hparts, hinit⟩ := h
    exact List.forall_mem_append.2 ⟨SpanParts.isUndotted hparts, hinit.isUndotted⟩

theorem SpanParts.isUndotted : ∀ {ps : List Part} {lo hi : Nat}, SpanParts ps lo hi →
    ∀ n ∈ partNodes false ps, n.isUndotted = true
  | [], _, _, _ => by simp [partNodes]
  | _ :: _, _, _, h => by
    simp only [SpanParts, partNodes] at h ⊢
    obtain ⟨mid, hfirst, hrest⟩ := h
    exact List.forall_mem_append.2 ⟨hfirst.isUndotted, SpanParts.isUndotted hrest⟩

end

/-! ## One after the other -/

theorem SpanParts.append {ps qs : List Part} {lo mid hi : Nat} (hps : SpanParts ps lo mid)
    (hqs : SpanParts qs mid hi) : SpanParts (ps ++ qs) lo hi := by
  induction ps generalizing lo with
  | nil =>
    simp only [SpanParts] at hps
    exact hqs.mono hps hi.le_refl
  | cons p ps ih =>
    simp only [List.cons_append, SpanParts] at hps ⊢
    obtain ⟨m, hp, hrest⟩ := hps
    exact ⟨m, hp, ih hrest⟩

theorem SpanParts.nil (lo : Nat) : SpanParts [] lo lo := by
  simp only [SpanParts]
  exact lo.le_refl

theorem Part.Spans.single {p : Part} {lo hi : Nat} (h : p.Spans lo hi) : SpanParts [p] lo hi := by
  simp only [SpanParts]
  exact ⟨hi, h, hi.le_refl⟩

theorem Expr.Spans.single {e : Expr} {lo hi : Nat} (h : e.Spans lo hi) :
    SpanParts [.expr e] lo hi := by
  refine Part.Spans.single ?_
  simp only [Part.Spans]
  exact h

/-- Types stand in a text with the expressions in them. -/
theorem SpanParts.types {ps : List Part} {lo hi : Nat} (h : SpanParts ps lo hi) :
    SpanParts [.types ps] lo hi := by
  refine Part.Spans.single ?_
  simp only [Part.Spans]
  exact h

/-- Things stand one after the other, the first from `lo` on and the last up to `hi`; `S` says
where one of them stands. -/
def Chained {α : Type} (S : α → Nat → Nat → Prop) : List α → Nat → Nat → Prop
  | [], lo, hi => lo = hi
  | x :: xs, lo, hi => ∃ mid, S x lo mid ∧ Chained S xs mid hi

namespace Chained

variable {α : Type} {S : α → Nat → Nat → Prop} {xs : List α} {x : α} {lo mid hi : Nat}

theorem concat (hxs : Chained S xs lo mid) (hx : S x mid hi) : Chained S (xs ++ [x]) lo hi := by
  induction xs generalizing lo with
  | nil => exact ⟨hi, hxs ▸ hx, rfl⟩
  | cons y ys ih =>
    obtain ⟨m, hy, hrest⟩ := hxs
    exact ⟨m, hy, ih hrest⟩

/-- What was read last stands at the head of a list that is read backwards. -/
theorem push {rev : List α} (hrev : Chained S rev.reverse lo mid) (hx : S x mid hi) :
    Chained S (x :: rev).reverse lo hi := by
  rw [List.reverse_cons]
  exact hrev.concat hx

theorem imp {S' : α → Nat → Nat → Prop} (h : Chained S xs lo hi)
    (hS : ∀ x lo hi, S x lo hi → S' x lo hi) : Chained S' xs lo hi := by
  induction xs generalizing lo with
  | nil => exact h
  | cons x xs ih =>
    obtain ⟨m, hx, hrest⟩ := h
    exact ⟨m, hS x lo m hx, ih hrest⟩

/-- The parts of things that stand one after the other do so too. -/
theorem spanParts_flatMap {parts : α → List Part}
    (h : Chained (fun x => SpanParts (parts x)) xs lo hi) : SpanParts (xs.flatMap parts) lo hi := by
  induction xs generalizing lo with
  | nil => exact h ▸ SpanParts.nil lo
  | cons x xs ih =>
    obtain ⟨m, hx, hrest⟩ := h
    rw [List.flatMap_cons]
    exact hx.append (ih hrest)

theorem spanParts_flatten {xs : List (List Part)} (h : Chained SpanParts xs lo hi) :
    SpanParts xs.flatten lo hi := by
  rw [← List.flatMap_id]
  exact spanParts_flatMap h

theorem spanExprs_map {expr : α → Expr} (h : Chained (fun x => (expr x).Spans) xs lo hi) :
    SpanExprs (xs.map expr) lo hi := by
  induction xs generalizing lo with
  | nil =>
    simp only [List.map_nil, SpanExprs]
    exact Nat.le_of_eq h
  | cons x xs ih =>
    obtain ⟨m, hx, hrest⟩ := h
    simp only [List.map_cons, SpanExprs]
    exact ⟨m, hx, ih hrest⟩

theorem spanExprs {es : List Expr} (h : Chained Expr.Spans es lo hi) : SpanExprs es lo hi := by
  have hmap : SpanExprs (es.map id) lo hi := spanExprs_map h
  rwa [List.map_id] at hmap

end Chained

theorem SpanParts.after {ps : List Part} {lo mid hi : Nat} (hps : SpanParts ps mid hi)
    (h : lo ≤ mid) : SpanParts ps lo hi :=
  hps.mono h hi.le_refl

theorem SpanParts.upTo {ps : List Part} {lo mid hi : Nat} (hps : SpanParts ps lo mid)
    (h : mid ≤ hi) : SpanParts ps lo hi :=
  hps.mono lo.le_refl h

/-! ## Statements -/

theorem Item.Spans.parts : ∀ {item : Item} {lo hi : Nat}, item.Spans lo hi →
    SpanParts item.parts lo hi
  | .importAlias _, lo, hi, h => by
    refine Expr.Spans.single ?_
    simp only [Expr.Spans]
    exact h
  | .other _, _, _, h => h
  | .importNames .., _, _, h | .importRequire .., _, _, h | .reexport .., _, _, h
  | .reexportAll .., _, _, h => by
    simp only [Item.parts, SpanParts]
    exact h.1.trans h.2.le

theorem Item.Spans.endsBy : ∀ {item : Item} {lo hi : Nat}, item.Spans lo hi →
    EndsBy (item.layout? lo) hi
  | .importAlias _, lo, _, h => ⟨lo + 1, rfl, h.2⟩
  | .other _, _, _, h => SpanParts.endsBy h
  | .importNames start .., _, _, h | .importRequire start .., _, _, h
  | .reexport start .., _, _, h | .reexportAll start .., _, _, h =>
    ⟨start + 1, by rw [Item.layout?, reach?_eq_some_iff.2 ⟨h.1, rfl⟩]; rfl, h.2⟩

theorem Item.Spans.mono {item : Item} {lo hi lo' : Nat} (h : item.Spans lo hi) (hlo : lo' ≤ lo) :
    item.Spans lo' hi := by
  cases item with
  | importAlias root => exact ⟨h.1, Nat.lt_of_le_of_lt hlo h.2⟩
  | other parts => exact SpanParts.mono h hlo hi.le_refl
  | importNames | importRequire | reexport | reexportAll => exact ⟨hlo.trans h.1, h.2⟩

/-- **A module whose statements stand in a text one after the other** is laid out, and no name
in it has a dot. -/
theorem Module.isLaidOut_of_chained {m : Module} {lo hi : Nat}
    (h : Chained Item.Spans m.items lo hi) : m.isLaidOut = true ∧ m.IsUndotted := by
  have hends : ∀ (items : List Item) (lo lo' : Nat), Chained Item.Spans items lo hi → lo' ≤ lo →
      EndsBy (layoutItems? items lo') hi := by
    intro items
    induction items with
    | nil => exact fun lo lo' h hlo => ⟨lo', rfl, h ▸ hlo⟩
    | cons item items ih =>
      intro lo lo' h hlo
      obtain ⟨mid, hitem, hrest⟩ := h
      exact (hitem.mono hlo).endsBy.bind fun m hm => ih mid m hrest hm
  have hnames : ∀ (items : List Item) (lo : Nat), Chained Item.Spans items lo hi →
      ∀ item ∈ items, ∀ n ∈ partNodes false item.parts, n.isUndotted = true := by
    intro items
    induction items with
    | nil => exact fun lo _ => List.forall_mem_nil _
    | cons item items ih =>
      intro lo h
      obtain ⟨mid, hitem, hrest⟩ := h
      exact List.forall_mem_cons.2 ⟨SpanParts.isUndotted hitem.parts, ih mid hrest⟩
  constructor
  · obtain ⟨mid, hlayout, -⟩ := hends m.items lo 0 h lo.zero_le
    rw [Module.isLaidOut, hlayout]
    rfl
  · intro n hn
    obtain ⟨item, hitem, hn⟩ := List.mem_flatMap.1 hn
    exact hnames m.items lo h item hitem n hn

end Source
end DependencyUse
