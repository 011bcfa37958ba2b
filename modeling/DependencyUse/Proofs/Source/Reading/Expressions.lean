/-
# Operators, arrow functions and assignments stand in the text

An operator is read after what stands on its left, so the readers of the rest of an expression
are told where that started (`ensures_binaryRest`, `ensures_assignmentRest`).  An arrow function
may be tried and given up; reading goes on where it started then (`ensures_arrowFunction`).
-/

import DependencyUse.Proofs.Source.Reading.Primary

namespace DependencyUse
namespace Source
namespace Grammar

open Reader

variable {c : Cursor} {lo mid : Nat}

/-! ## Operators -/

theorem moves_joinAngle : joinAngle.Moves := by
  intro lo c hc
  rw [joinAngle]
  refine (stays_atSign _).bind fun angle => ?_
  split
  · refine .get_bind ?_
    split
    · rename_i s rest hread
      exact moves_retoken (lt_of_readAngle hread) (by simp) hc
    · exact .pure hc
  · exact .pure hc

theorem moves_joinForms (op : String) (a b : Form) : (joinForms op a b).Moves := by
  intro lo c hc
  unfold joinForms
  split
  iterate 3 exact (keepsToken_flagIf _).moves.bind hc fun _ c₁ hc₁ => .pure hc₁
  exact .pure hc

theorem moves_noPower : noPower.Moves :=
  fun _ _ hc => (stays_atSign _).bind fun _ => (keepsToken_flagIf _).moves hc

theorem ensures_atAwait : atAwait.Ensures c fun b c' =>
    (b = true → c.token.kind.isSolid = true) ∧ c' = c := by
  rw [atAwait]
  refine (ensures_atWord (by decide)).bind_stay fun due hdue => ?_
  split
  · rename_i htrue
    obtain ⟨escaped, hkind⟩ := hdue htrue
    have hsolid : c.token.kind.isSolid = true := by rw [hkind, Kind.isSolid]
    refine stays_read.bind fun ctx => ?_
    split
    · exact .pure ⟨fun _ => hsolid, rfl⟩
    · exact (stays_peeks _ _).mono fun _ _ h => ⟨fun _ => hsolid, h⟩
  · exact .pure ⟨by simp, rfl⟩

section Rules

variable {self : Rules} (hself : self.Lay)
include hself

theorem ensures_binaryRest {level : Nat} {first : Operand} (hfirst : first.Spans lo mid)
    (hc : c.At mid) : (binaryRest self level first).Ensures c (Laid Operand.Spans lo) := by
  refine .loop (I := Laid Operand.Spans lo) ⟨mid, hfirst, hc⟩ fun lhs c ⟨mid, hlhs, hc⟩ => ?_
  refine moves_joinAngle.bind hc fun _ c₁ hc₁ => stays_operatorLevel.bind fun operator => ?_
  cases operator with
  | none => exact .pure ⟨mid, hlhs, hc₁⟩
  | some l =>
    dsimp only
    split
    · exact .pure ⟨mid, hlhs, hc₁⟩
    refine stays_word.bind fun w => ?_
    split
    · refine moves_keyword.bind hc₁ fun _ c₂ hc₂ => ?_
      refine hself.type.bind hc₂ fun t c₃ hi ht hc₃ => .pure ⟨hi, ?_, hc₃⟩
      split <;> simp only [Operand.Spans, Expr.Spans] <;> exact ⟨mid, hlhs, ht⟩
    refine stays_sign.bind fun op => ?_
    refine moves_keyword.bind_ite moves_advance hc₁ fun _ c₂ hc₂ => ?_
    refine (hself.binary l).bind hc₂ fun rhs c₃ hi hrhs hc₃ => ?_
    refine (moves_joinForms _ _ _).bind hc₃ fun form c₄ hc₄ => .pure ⟨hi, ?_, hc₄⟩
    simp only [Operand.Spans, Expr.Spans]
    exact hlhs.pair hrhs

theorem lays_binary (level : Nat) : (binary self level).Lays Operand.Spans := by
  intro lo c hc
  rw [binary]
  refine stays_token.bind fun t => ?_
  split
  · refine moves_advance.bind hc fun _ c₁ hc₁ => (moves_expectWord _).bind hc₁ fun _ c₂ hc₂ => ?_
    refine (hself.binary 8).bind hc₂ fun rhs c₃ hi hrhs hc₃ => ?_
    exact ensures_binaryRest hself (spans_compound hrhs.single) hc₃
  · refine hself.unary.bind hc fun o c₁ hi ho hc₁ => ?_
    exact ensures_binaryRest hself ho hc₁

/-! ## Prefix and postfix operators -/

theorem lays_update : (update self).Lays Operand.Spans := by
  intro lo c hc
  rw [update]
  refine (stays_atSign _).bind fun plus => (stays_atSign _).bind fun minus => ?_
  split
  · refine moves_advance.bind hc fun _ c₁ hc₁ => ?_
    refine hself.unary.bind hc₁ fun o c₂ hi ho hc₂ => ?_
    exact (moves_assignTo o true).bind hc₂ fun _ c₃ hc₃ => .pure ⟨hi, spans_compound ho.single, hc₃⟩
  refine hself.leftHand.bind hc fun o c₁ hi ho hc₁ => ?_
  refine (stays_atSign _).bind fun plus => (stays_atSign _).bind fun minus => ?_
  refine stays_onNewLine.bind fun breaks => ?_
  split
  · refine moves_advance.bind hc₁ fun _ c₂ hc₂ => ?_
    exact (moves_assignTo o true).bind hc₂ fun _ c₃ hc₃ => .pure ⟨hi, spans_compound ho.single, hc₃⟩
  · exact .pure ⟨hi, ho, hc₁⟩

theorem lays_unary : (unary self).Lays Operand.Spans := by
  intro lo c hc
  rw [unary]
  refine stays_read.bind fun ctx => ensures_sign.bind_stay fun s hs => ?_
  refine stays_word.bind fun w => ?_
  split
  · extract_lets jp
    refine moves_keyword.bind_ite moves_advance hc fun _ c₁ hc₁ => ?_
    refine hself.unary.bind hc₁ fun o c₂ hi ho hc₂ => ?_
    exact moves_noPower.bind hc₂ fun _ c₃ hc₃ => .pure ⟨hi, spans_compound ho.single, hc₃⟩
  split
  · rename_i hangle
    obtain rfl : s = "<" := by
      rw [Bool.and_eq_true, beq_iff_eq] at hangle
      exact hangle.1
    have hsolid : c.token.kind.isSolid = true := by rw [hs (by decide), Kind.isSolid]
    extract_lets jp
    split
    · refine (ensures_advance_solid hc hsolid).bind fun _ c₁ hc₁ => ?_
      refine hself.type.bind hc₁ fun t c₂ mid ht hc₂ => ?_
      refine (moves_expectSign _).bind hc₂ fun _ c₃ hc₃ => ?_
      refine hself.unary.bind hc₃ fun o c₄ hi ho hc₄ => ?_
      refine moves_noPower.bind hc₄ fun _ c₅ hc₅ => .pure ⟨hi, ?_, hc₅⟩
      simp only [Operand.Spans, Expr.Spans]
      exact ⟨mid, ht, ho⟩
    · exact .reject_bind
  refine ensures_atAwait.bind_stay fun awaits hawaits => ?_
  split
  · rename_i htrue
    refine (keepsToken_flagIf _).bind hc fun _ c₁ hc₁ htoken => ?_
    refine (ensures_keyword_solid hc₁ (htoken ▸ hawaits htrue)).bind fun _ c₂ hc₂ => ?_
    refine hself.unary.bind hc₂ fun o c₃ hi ho hc₃ => ?_
    refine moves_noPower.bind hc₃ fun _ c₄ hc₄ => .pure ⟨hi, ?_, hc₄⟩
    simp only [Operand.Spans, Expr.Spans]
    exact ho
  · exact lays_update hself hc

/-! ## Arrow functions -/

omit hself in
theorem stays_arrowDue : arrowDue.Stays := (stays_lookahead _).andThen fun _ => stays_pure _

theorem lays_arrowHead : (arrowHead self).Lays fun (head : ArrowHead) => SpanParts head.parts := by
  intro lo c hc
  rw [arrowHead]
  refine (moves_eatWord _).bind hc fun async c₁ hc₁ => ?_
  refine (Lays.inContext (S := fun (r : List Part × Bool) => SpanParts r.1) fun lo c hc => ?_).bind
    hc₁ fun (parts, typed) c₂ hi hparts hc₂ => ?_
  · refine (lays_typeParameters hself).bind hc fun generics c₁ mid hgenerics hc₁ => ?_
    refine (lays_parameters hself).bind hc₁ fun ps c₂ mid' hps hc₂ => ?_
    refine (lays_annotatedResult hself).bind hc₂ fun result c₃ hi hresult hc₃ => ?_
    exact .pure ⟨hi, (hgenerics.append hps).append hresult, hc₃⟩
  · refine stays_onNewLine.bind fun breaks => ?_
    refine (keepsToken_flagIf _).moves.bind hc₂ fun _ c₃ hc₃ => ?_
    exact (moves_expectSign _).bind hc₃ fun _ c₄ hc₄ => .pure ⟨hi, hparts, hc₄⟩

theorem lays_arrowBody (async arrowType : Bool) :
    (arrowBody self async arrowType).Lays SpanParts := by
  intro lo c hc
  rw [arrowBody]
  refine (stays_atSign _).bind fun brace => ?_
  split
  · exact (lays_block hself).inContext hc
  · refine (hself.assignment arrowType).inContext.bind hc fun o c₁ hi ho hc₁ => ?_
    exact .pure ⟨hi, ho.single, hc₁⟩

theorem ensures_arrowFunction (arrowType : Bool) (hc : c.At lo) :
    (arrowFunction self arrowType).Ensures c fun r c' =>
      r.elim (c'.At lo) (Laid Operand.Spans lo · c') := by
  rw [arrowFunction]
  refine stays_arrowDue.bind fun due => ?_
  split
  · exact .pure hc
  refine .get_bind ?_
  extract_lets certain jp
  have hjp : ∀ (head : Option ArrowHead) (c : Cursor),
      head.elim (c.At lo) (fun h => ∃ mid, SpanParts h.parts lo mid ∧ c.At mid) →
      (jp head).Ensures c fun r c' =>
        r.elim (c'.At lo) (Laid Operand.Spans lo · c') := by
    intro head c₁ hhead
    cases head with
    | none => exact .pure hhead
    | some h =>
      obtain ⟨mid, hparts, hc₁⟩ := hhead
      simp only [jp]
      split
      · refine (Ensures.attempt (Q := Laid Operand.Spans lo) ?_).bind
          fun whole c₂ hwhole => ?_
        · refine (lays_arrowBody hself h.async arrowType).bind hc₁ fun body c₂ hi hbody hc₂ => ?_
          refine (stays_atSign _).bind fun colon => ?_
          split
          · exact .pure ⟨hi, spans_compound (hparts.append hbody), hc₂⟩
          · exact .reject_bind
        · -- The cursor goes back to where the head starts if there is no body.
          cases whole with
          | none => exact (ensures_set c).bind fun _ c₃ h => .pure (h ▸ hc)
          | some o => exact .pure hwhole
      · refine (lays_arrowBody hself h.async _).bind hc₁ fun body c₂ hi hbody hc₂ => ?_
        exact .pure ⟨hi, spans_compound (hparts.append hbody), hc₂⟩
  split
  · exact (lays_arrowHead hself).bind hc fun head c₁ mid hhead hc₁ =>
      .pure_bind (hjp (some head) c₁ ⟨mid, hhead, hc₁⟩)
  · refine (lays_arrowHead hself hc).attempt.bind fun head c₁ hhead => hjp head c₁ ?_
    cases head with
    | none => exact hhead ▸ hc
    | some h => exact hhead

omit hself in
theorem stays_asyncArrowDue : asyncArrowDue.Stays := by
  intro c
  rw [asyncArrowDue]
  refine (stays_atWord _).bind fun async => ?_
  split
  · exact stays_peeks _ _
  · exact .pure rfl

/-! ## Assignment and sequence -/

omit hself in
theorem stays_atYield : atYield.Stays := by
  intro c
  rw [atYield]
  refine (stays_atWord _).bind fun due => ?_
  split
  · refine stays_read.bind fun ctx => ?_
    split
    · exact .pure rfl
    · exact stays_peeks _ _
  · exact .pure rfl

theorem lays_yieldExpression : (yieldExpression self).Lays Operand.Spans := by
  intro lo c hc
  rw [yieldExpression]
  refine stays_read.bind fun ctx => (keepsToken_flagIf _).moves.bind hc fun _ c₁ hc₁ => ?_
  refine moves_keyword.bind hc₁ fun _ c₂ hc₂ => stays_onNewLine.bind fun breaks => ?_
  split
  · exact .pure ⟨lo, spans_compound (.nil lo), hc₂⟩
  refine (moves_eatSign _).bind hc₂ fun star c₃ hc₃ => ?_
  split
  · exact (hself.assignment true).bind hc₃ fun o c₄ hi ho hc₄ =>
      .pure ⟨hi, spans_compound ho.single, hc₄⟩
  refine stays_sign.bind fun s => stays_atEnd.bind fun atEnd => ?_
  refine (stays_atWord _).bind fun inDue => ?_
  extract_lets ends
  split
  · exact .pure ⟨lo, spans_compound (.nil lo), hc₃⟩
  · exact (hself.assignment true).bind hc₃ fun o c₄ hi ho hc₄ =>
      .pure ⟨hi, spans_compound ho.single, hc₄⟩

theorem ensures_assignmentRest (arrowType : Bool) {lhs : Operand} (hlhs : lhs.Spans lo mid)
    (hc : c.At mid) : (assignmentRest self arrowType lhs).Ensures c (Laid Operand.Spans lo) := by
  rw [assignmentRest]
  refine stays_sign.bind fun s => ?_
  extract_lets jp
  have hjp : (jp ()).Ensures c (Laid Operand.Spans lo) := by
    simp only [jp]
    split
    · refine (moves_assignTo _ _).bind hc fun _ c₁ hc₁ => ?_
      refine moves_advance.bind hc₁ fun _ c₂ hc₂ => ?_
      refine (hself.assignment arrowType).bind hc₂ fun rhs c₃ hi hrhs hc₃ => .pure ⟨hi, ?_, hc₃⟩
      simp only [Operand.Spans, Expr.Spans]
      exact hlhs.pair hrhs
    refine (moves_eatSign _).bind hc fun question c₁ hc₁ => ?_
    split
    · refine (hself.assignment false).inContext.bind hc₁ fun yes c₂ mid' hyes hc₂ => ?_
      refine (moves_expectSign _).bind hc₂ fun _ c₃ hc₃ => ?_
      refine (hself.assignment arrowType).bind hc₃ fun no c₄ hi hno hc₄ => ?_
      exact .pure ⟨hi, spans_compound (hlhs.single.append (hyes.pair hno)), hc₄⟩
    · exact .pure ⟨mid, hlhs, hc₁⟩
  split
  · split
    · refine stays_onNewLine.bind fun breaks => ?_
      refine (keepsToken_flagIf _).moves.bind hc fun _ c₁ hc₁ => ?_
      refine moves_advance.bind hc₁ fun _ c₂ hc₂ => ?_
      refine (lays_arrowBody hself false arrowType).bind hc₂ fun body c₃ hi hbody hc₃ => ?_
      exact .pure ⟨hi, spans_compound (hbody.after (Expr.Spans.le hlhs)), hc₃⟩
    · exact .reject_bind
  · exact hjp

theorem lays_assignment (arrowType : Bool) : (assignment self arrowType).Lays Operand.Spans := by
  intro lo c hc
  rw [assignment]
  refine stays_atYield.bind fun yields => ?_
  split
  · exact lays_yieldExpression hself hc
  refine (ensures_arrowFunction hself arrowType hc).bind fun arrow c₁ harrow => ?_
  cases arrow with
  | some o => exact .pure harrow
  | none =>
    have hc₁ : c₁.At lo := harrow
    refine stays_asyncArrowDue.bind fun async => ?_
    split
    · refine moves_keyword.bind hc₁ fun _ c₂ hc₂ => ?_
      refine takes_bindingName.moves.inContext.bind hc₂ fun _ c₃ hc₃ => ?_
      refine moves_advance.bind hc₃ fun _ c₄ hc₄ => ?_
      exact (lays_arrowBody hself true arrowType).bind hc₄ fun body c₅ hi hbody hc₅ =>
        .pure ⟨hi, spans_compound hbody, hc₅⟩
    · refine (hself.binary 0).bind hc₁ fun o c₂ mid ho hc₂ => ?_
      exact ensures_assignmentRest hself arrowType ho hc₂

theorem lays_expression : (expression self).Lays Operand.Spans := by
  intro lo c hc
  rw [expression]
  refine (hself.assignment true).bind hc fun first c₁ mid hfirst hc₁ => ?_
  refine (stays_atSign _).bind fun comma => ?_
  split
  · refine moves_advance.bind hc₁ fun _ c₂ hc₂ => ?_
    refine (lays_sepBy1 _ (hself.assignment true)).bind hc₂ fun more c₃ hi hmore hc₃ => ?_
    refine .pure ⟨hi, ?_, hc₃⟩
    simp only [Operand.Spans, Expr.Spans, SpanExprs]
    exact ⟨mid, hfirst, hmore.spanExprs_map⟩
  · exact .pure ⟨mid, hfirst, hc₁⟩

end Rules

end Grammar
end Source
end DependencyUse
