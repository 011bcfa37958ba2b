/-
# Statements stand in the text

The pieces of a statement leave their expressions in source order, and `lays_statement` goes over
the words a statement can start with.  A loop is read up to `of`, `in` or the first semicolon
before it is known which loop it is; what was read of it is passed on (`ensures_forEach`,
`ensures_forRest`).
-/

import DependencyUse.Proofs.Source.Reading.Modules
import DependencyUse.Source.Grammar.Statements

namespace DependencyUse
namespace Source
namespace Grammar

open Reader

variable {c : Cursor} {lo mid : Nat}

theorem stays_atEach : atEach.Stays :=
  (stays_atWord _).andThen fun _ => (stays_atWord _).andThen fun _ => stays_pure _

theorem stays_forDeclares : forDeclares.Stays := by
  intro c
  rw [forDeclares]
  refine (stays_atWord _).bind fun var => (stays_atWord _).bind fun const => ?_
  split
  · exact .pure rfl
  refine (stays_peeks _).bind fun letDue => ?_
  split
  · exact .pure rfl
  · exact stays_peeks _ _

theorem stays_labelDue : labelDue.Stays := by
  intro c
  rw [labelDue]
  refine stays_read.bind fun ctx => stays_word.bind fun w => ?_
  split
  · exact stays_peeks _ _
  · exact .pure rfl

theorem lays_jumpStatement : jumpStatement.Lays SpanParts := by
  intro lo c hc
  rw [jumpStatement]
  refine moves_keyword.bind hc fun _ c₁ hc₁ => stays_atName.bind fun named => ?_
  refine stays_onNewLine.bind fun breaks => ?_
  extract_lets jp
  refine moves_advance.bind_if (a := ()) hc₁ fun _ c₂ hc₂ => ?_
  exact moves_semicolon.bind hc₂ fun _ c₃ hc₃ => .pure ⟨lo, .nil lo, hc₃⟩

section Rules

variable {self : Rules} (hself : self.Lay)
include hself

theorem lays_condition : (condition self).Lays fun (p : Part) => SpanParts [p] := by
  intro lo c hc
  rw [condition]
  refine (moves_expectSign _).bind hc fun _ c₁ hc₁ => ?_
  refine hself.expression.nested.bind hc₁ fun o c₂ hi ho hc₂ => ?_
  exact (moves_expectSign _).bind hc₂ fun _ c₃ hc₃ => .pure ⟨hi, ho.single, hc₃⟩

theorem lays_body : (body self).Lays SpanParts := by
  intro lo c hc
  rw [body]
  exact (hself.statement true).bind hc fun item c₁ hi hitem hc₁ => .pure ⟨hi, hitem.parts, hc₁⟩

theorem lays_ifStatement : (ifStatement self).Lays SpanParts := by
  intro lo c hc
  rw [ifStatement]
  refine moves_keyword.bind hc fun _ c₁ hc₁ => ?_
  refine (lays_condition hself).bind hc₁ fun test c₂ mid htest hc₂ => ?_
  refine (lays_body hself).bind hc₂ fun yes c₃ mid' hyes hc₃ => ?_
  refine (moves_eatWord _).bind hc₃ fun else_ c₄ hc₄ => ?_
  extract_lets jp
  refine (lays_body hself).bind_ite lays_nil hc₄ fun no c₅ hi hno hc₅ => ?_
  exact .pure ⟨hi, SpanParts.append htest (hyes.append hno), hc₅⟩

theorem lays_doStatement : (doStatement self).Lays SpanParts := by
  intro lo c hc
  rw [doStatement]
  refine moves_keyword.bind hc fun _ c₁ hc₁ => ?_
  refine (lays_body hself).bind hc₁ fun inner c₂ mid hinner hc₂ => ?_
  refine (moves_expectWord _).bind hc₂ fun _ c₃ hc₃ => ?_
  refine (lays_condition hself).bind hc₃ fun test c₄ hi htest hc₄ => ?_
  exact (moves_eatSign _).bind hc₄ fun _ c₅ hc₅ => .pure ⟨hi, hinner.append htest, hc₅⟩

/-! ## For loops -/

theorem ensures_forRest {init : List Part} (hinit : SpanParts init lo mid) (hc : c.At mid) :
    (forRest self init).Ensures c (Laid SpanParts lo) := by
  rw [forRest]
  refine (moves_expectSign _).bind hc fun _ c₁ hc₁ => (stays_atSign _).bind fun empty => ?_
  extract_lets jp
  have hjp : ∀ test c mid', SpanParts test mid mid' → c.At mid' →
      (jp test).Ensures c (Laid SpanParts lo) := by
    intro test c mid' htest hc
    refine (moves_expectSign _).bind hc fun _ c₁ hc₁ => (stays_atSign _).bind fun empty => ?_
    extract_lets jp
    have hjp : ∀ step c mid'', SpanParts step mid' mid'' → c.At mid'' →
        (jp step).Ensures c (Laid SpanParts lo) := by
      intro step c mid'' hstep hc
      refine (moves_expectSign _).bind hc fun _ c₁ hc₁ => ?_
      refine (lays_body hself).bind hc₁ fun inner c₂ hi hinner hc₂ => ?_
      exact .pure ⟨hi, ((hinit.append htest).append hstep).append hinner, hc₂⟩
    split
    · exact lays_nil.bind hc₁ hjp
    · exact hself.expression.nested.bind hc₁ fun o c₂ hi ho hc₂ =>
        .pure_bind (hjp _ c₂ hi ho.single hc₂)
  split
  · exact lays_nil.bind hc₁ hjp
  · exact hself.expression.nested.bind hc₁ fun o c₂ hi ho hc₂ =>
      .pure_bind (hjp _ c₂ hi ho.single hc₂)

theorem ensures_forEach {left : List Part} (hleft : SpanParts left lo mid) (hc : c.At mid) :
    (forEach self left).Ensures c (Laid SpanParts lo) := by
  rw [forEach]
  refine (moves_eatWord _).bind hc fun overMembers c₁ hc₁ => ?_
  extract_lets jp
  have hjp : ∀ (right : Operand) (c : Cursor) (mid' : Nat), right.Spans mid mid' → c.At mid' →
      (jp right).Ensures c (Laid SpanParts lo) := by
    intro right c mid' hright hc
    refine (moves_expectSign _).bind hc fun _ c₁ hc₁ => ?_
    refine (lays_body hself).bind hc₁ fun inner c₂ hi hinner hc₂ => ?_
    exact .pure ⟨hi, hleft.append (hright.single.append hinner), hc₂⟩
  split
  · exact (hself.assignment true).nested.bind hc₁ hjp
  · exact moves_keyword.bind hc₁ fun _ c₂ hc₂ => hself.expression.nested.bind hc₂ hjp

theorem lays_forStatement : (forStatement self).Lays SpanParts := by
  intro lo c hc
  rw [forStatement]
  refine moves_keyword.bind hc fun _ c₁ hc₁ => (stays_atWord _).bind fun awaits => ?_
  extract_lets noIn jp
  have hjp : (jp ()).Lays SpanParts := by
    intro lo c hc
    refine (moves_expectSign _).bind hc fun _ c₁ hc₁ => (stays_atSign _).bind fun empty => ?_
    split
    · refine (keepsToken_flagIf _).moves.bind hc₁ fun _ c₂ hc₂ => ?_
      exact ensures_forRest hself (.nil lo) hc₂
    refine stays_forDeclares.bind fun declares => ?_
    split
    · refine moves_variableWord.bind hc₁ fun w c₂ hc₂ => ?_
      refine (lays_sepBy1 _ (lays_declaredVariable hself)).inContext.bind hc₂
        fun vs c₃ mid hvs hc₃ => ?_
      extract_lets parts
      have hparts : SpanParts parts lo mid := hvs.spanParts_flatMap
      refine stays_atEach.bind fun each => ?_
      split
      · exact ensures_forEach hself hparts hc₃
      · refine (keepsToken_flagIf _).moves.bind hc₃ fun _ c₄ hc₄ => ?_
        refine (moves_checkValues w vs).bind hc₄ fun _ c₅ hc₅ => ?_
        exact ensures_forRest hself hparts hc₅
    refine (stays_peeks _).bind fun asyncOf => (stays_atWord _).bind fun startsLet => ?_
    refine hself.expression.inContext.bind hc₁ fun o c₂ mid ho hc₂ => ?_
    refine stays_atEach.bind fun each => ?_
    split
    · refine (stays_atWord _).bind fun overMembers => ?_
      refine (keepsToken_flagIf _).moves.bind hc₂ fun _ c₃ hc₃ => ?_
      refine (moves_assignTo o false).bind hc₃ fun _ c₄ hc₄ => ?_
      exact ensures_forEach hself ho.single hc₄
    · refine (keepsToken_flagIf _).moves.bind hc₂ fun _ c₃ hc₃ => ?_
      exact ensures_forRest hself ho.single hc₃
  split
  · refine stays_read.bind fun ctx => (keepsToken_flagIf _).moves.bind hc₁ fun _ c₂ hc₂ => ?_
    exact moves_keyword.bind hc₂ fun _ c₃ hc₃ => hjp hc₃
  · exact hjp hc₁

/-! ## Jumps, switch, try -/

theorem lays_returnStatement : (returnStatement self).Lays SpanParts := by
  intro lo c hc
  rw [returnStatement]
  refine stays_read.bind fun ctx => (keepsToken_flagIf _).moves.bind hc fun _ c₁ hc₁ => ?_
  refine moves_keyword.bind hc₁ fun _ c₂ hc₂ => stays_mayEnd.bind fun ends => ?_
  split
  · exact moves_semicolon.bind hc₂ fun _ c₃ hc₃ => .pure ⟨lo, .nil lo, hc₃⟩
  refine hself.expression.nested.bind hc₂ fun o c₃ hi ho hc₃ => ?_
  exact moves_semicolon.bind hc₃ fun _ c₄ hc₄ => .pure ⟨hi, ho.single, hc₄⟩

theorem lays_throwStatement : (throwStatement self).Lays SpanParts := by
  intro lo c hc
  rw [throwStatement]
  refine moves_keyword.bind hc fun _ c₁ hc₁ => stays_onNewLine.bind fun breaks => ?_
  extract_lets jp
  split
  · exact .reject_bind
  refine hself.expression.nested.bind hc₁ fun o c₂ hi ho hc₂ => ?_
  exact moves_semicolon.bind hc₂ fun _ c₃ hc₃ => .pure ⟨hi, ho.single, hc₃⟩

theorem lays_switchClause : (switchClause self).Lays SpanParts := by
  intro lo c hc
  rw [switchClause]
  refine (moves_eatWord _).bind hc fun default_ c₁ hc₁ => ?_
  extract_lets jp
  have hjp : ∀ test c mid, SpanParts test lo mid → c.At mid →
      (jp test).Ensures c (Laid SpanParts lo) := by
    intro test c mid htest hc
    refine (moves_expectSign _).bind hc fun _ c₁ hc₁ => ?_
    refine Ensures.bind (P := Laid SpanParts mid)
      (.loop (I := Laid SpanParts mid) ⟨mid, .nil mid, hc₁⟩
        fun parts c ⟨m, hparts, hc⟩ => ?_)
      fun inner c₂ ⟨hi, hinner, hc₂⟩ => .pure ⟨hi, htest.append hinner, hc₂⟩
    refine (stays_atSign _).bind fun closes => (stays_atWord _).bind fun case_ => ?_
    refine (stays_atWord _).bind fun default_ => ?_
    split
    · exact .pure ⟨m, hparts, hc⟩
    · refine (hself.statement false).bind hc fun item c₂ hi hitem hc₂ => ?_
      exact .pure ⟨hi, hparts.append hitem.parts, hc₂⟩
  split
  · exact lays_nil.bind hc₁ hjp
  · refine (moves_expectWord _).bind hc₁ fun _ c₂ hc₂ => ?_
    exact hself.expression.nested.bind hc₂ fun o c₃ hi ho hc₃ =>
      .pure_bind (hjp _ c₃ hi ho.single hc₃)

theorem lays_switchStatement : (switchStatement self).Lays SpanParts := by
  intro lo c hc
  rw [switchStatement]
  refine moves_keyword.bind hc fun _ c₁ hc₁ => ?_
  refine (lays_condition hself).bind hc₁ fun test c₂ mid htest hc₂ => ?_
  refine (moves_expectSign _).bind hc₂ fun _ c₃ hc₃ => ?_
  refine (lays_many _ (lays_switchClause hself)).bind hc₃ fun clauses c₄ hi hclauses hc₄ => ?_
  refine (moves_expectSign _).bind hc₄ fun _ c₅ hc₅ => ?_
  exact .pure ⟨hi, SpanParts.append htest hclauses.spanParts_flatten, hc₅⟩

theorem lays_tryStatement : (tryStatement self).Lays SpanParts := by
  intro lo c hc
  rw [tryStatement]
  refine moves_keyword.bind hc fun _ c₁ hc₁ => ?_
  refine (lays_block hself).bind hc₁ fun guarded c₂ mid hguarded hc₂ => ?_
  refine (moves_eatWord _).bind hc₂ fun catch_ c₃ hc₃ => ?_
  extract_lets jp jp'
  have hjp : ∀ (caught : Option (List Part)) (c : Cursor) (mid' : Nat),
      SpanParts (caught.getD []) mid mid' → c.At mid' →
      (jp caught).Ensures c (Laid SpanParts lo) := by
    intro caught c mid' hcaught hc
    refine (moves_eatWord _).bind hc fun finally_ c₁ hc₁ => ?_
    extract_lets jp
    have hjp : ∀ (last : Option (List Part)) (c : Cursor) (hi : Nat),
        SpanParts (last.getD []) mid' hi → c.At hi →
        (jp last).Ensures c (Laid SpanParts lo) := by
      intro last c hi hlast hc
      simp only [jp]
      split
      · exact .reject_bind
      · exact .pure ⟨hi, (hguarded.append hcaught).append hlast, hc⟩
    split
    · exact (lays_block hself).bind hc₁ fun last c₂ hi hlast hc₂ =>
        .pure_bind (hjp (some last) c₂ hi hlast hc₂)
    · exact .pure_bind (hjp none c₁ mid' (.nil mid') hc₁)
  split
  · refine (moves_eatSign _).bind hc₃ fun paren c₄ hc₄ => ?_
    have hjp' : ∀ parameter c mid', SpanParts parameter mid mid' → c.At mid' →
        (jp' parameter).Ensures c (Laid SpanParts lo) :=
      fun parameter c mid' hparameter hc => (lays_block hself).bind hc fun inner c₁ hi hinner hc₁ =>
        .pure_bind (hjp (some (parameter ++ inner)) c₁ hi (hparameter.append hinner) hc₁)
    split
    · refine hself.pattern.bind hc₄ fun b c₅ mid' hb hc₅ => ?_
      refine (lays_annotated hself).bind hc₅ fun annotation c₆ hi hannotation hc₆ => ?_
      refine (moves_expectSign _).bind hc₆ fun _ c₇ hc₇ => ?_
      exact .pure_bind (hjp' _ c₇ hi (SpanParts.append hb hannotation) hc₇)
    · exact lays_nil.bind hc₄ hjp'
  · exact .pure_bind (hjp none c₃ mid (.nil mid) hc₃)

/-! ## Dispatch -/

theorem lays_expressionStatement : (expressionStatement self).Lays Item.Spans := by
  intro lo c hc
  rw [expressionStatement]
  refine hself.expression.bind hc fun o c₁ hi ho hc₁ => ?_
  exact moves_semicolon.bind hc₁ fun _ c₂ hc₂ => .pure ⟨hi, ho.single, hc₂⟩

theorem lays_decoratedStatement : (decoratedStatement self).Lays Item.Spans := by
  intro lo c hc
  rw [decoratedStatement]
  refine (lays_decorators hself).bind hc fun ds c₁ mid hds hc₁ => ?_
  refine (stays_atWord _).bind fun exports => ?_
  split
  · exact ensures_exportDeclaration hself hds hc₁
  refine (stays_peeks _).bind fun classDue => ?_
  refine (keepsToken_flagIf _).moves.bind hc₁ fun _ c₂ hc₂ => ?_
  refine stays_read.bind fun ctx => ?_
  split
  · refine (lays_typedDeclaration hself).bind hc₂ fun d c₃ hi hd hc₃ => ?_
    exact .pure ⟨hi, SpanParts.append hds hd, hc₃⟩
  · refine (lays_classDeclaration hself).bind hc₂ fun d c₃ hi hd hc₃ => ?_
    exact .pure ⟨hi, SpanParts.append hds hd, hc₃⟩

omit hself in
/-- Parts as a statement. -/
theorem lays_item {p : Reader (List Part)} (hp : p.Lays SpanParts) :
    (do return .other (← p) : Reader Item).Lays Item.Spans :=
  fun _ _ hc => hp.bind hc fun _ _ hi hparts hc₁ => .pure ⟨hi, hparts, hc₁⟩

omit hself in
/-- A declaration as a statement. -/
theorem lays_declaredItem {p : Reader Declared} (hp : p.Lays Declared.Spans) :
    (do return .other (← p).parts : Reader Item).Lays Item.Spans :=
  fun _ _ hc => hp.bind hc fun _ _ hi hd hc₁ => .pure ⟨hi, hd, hc₁⟩

theorem lays_otherStatement (single : Bool) : (otherStatement self single).Lays Item.Spans := by
  intro lo c hc
  rw [otherStatement]
  refine stays_labelDue.bind fun label => ?_
  split
  · refine moves_advance.bind hc fun _ c₁ hc₁ => moves_advance.bind hc₁ fun _ c₂ hc₂ => ?_
    exact lays_item (lays_body hself) hc₂
  refine (stays_peeks _).bind fun letDue => (stays_peeks _).bind fun usingDue => ?_
  split
  · refine (keepsToken_flagIf _).moves.bind hc fun _ c₁ hc₁ => ?_
    exact lays_declaredItem (lays_variableStatement hself) hc₁
  refine stays_asyncFunctionDue.bind fun asyncFunction => ?_
  split
  · exact lays_declaredItem (lays_functionDeclaration hself single false) hc
  refine stays_read.bind fun ctx => (stays_peeks _).bind fun declarationDue => ?_
  split
  · exact lays_declaredItem (lays_typedDeclaration hself) hc
  · exact lays_expressionStatement hself hc

/-- **A statement** stands in the text. -/
theorem lays_statement (single : Bool) : (statement self single).Lays Item.Spans := by
  intro lo c hc
  -- `while` and `with`
  have hheaded : (do
      keyword
      let test ← condition self
      return .other (test :: (← body self)) : Reader Item).Lays Item.Spans := by
    intro lo c hc
    refine moves_keyword.bind hc fun _ c₁ hc₁ => ?_
    refine (lays_condition hself).bind hc₁ fun test c₂ mid htest hc₂ => ?_
    refine (lays_body hself).bind hc₂ fun inner c₃ hi hinner hc₃ => ?_
    exact .pure ⟨hi, SpanParts.append htest hinner, hc₃⟩
  rw [statement]
  refine stays_token.bind fun t => ?_
  split
  · exact lays_item (lays_block hself) hc
  · exact moves_advance.bind hc fun _ c₁ hc₁ => .pure ⟨lo, .nil lo, hc₁⟩
  · exact lays_decoratedStatement hself hc
  · split
    · exact lays_item (lays_ifStatement hself) hc
    · exact lays_item (lays_doStatement hself) hc
    · exact hheaded hc
    · exact lays_item (lays_forStatement hself) hc
    · exact hheaded hc
    · exact lays_item lays_jumpStatement hc
    · exact lays_item lays_jumpStatement hc
    · exact lays_item (lays_returnStatement hself) hc
    · exact lays_item (lays_throwStatement hself) hc
    · exact lays_item (lays_switchStatement hself) hc
    · exact lays_item (lays_tryStatement hself) hc
    · refine moves_keyword.bind hc fun _ c₁ hc₁ => moves_semicolon.bind hc₁ fun _ c₂ hc₂ => ?_
      exact .pure ⟨lo, .nil lo, hc₂⟩
    · refine (keepsToken_flagIf _).moves.bind hc fun _ c₁ hc₁ => ?_
      exact lays_declaredItem (lays_classDeclaration hself) hc₁
    · exact lays_declaredItem (lays_functionDeclaration hself single false) hc
    · exact lays_declaredItem (lays_variableStatement hself) hc
    · refine (keepsToken_flagIf _).moves.bind hc fun _ c₁ hc₁ => stays_read.bind fun ctx => ?_
      split
      · exact lays_declaredItem (lays_typedDeclaration hself) hc₁
      · exact lays_declaredItem (lays_variableStatement hself) hc₁
    · exact ensures_exportDeclaration hself (.nil lo) hc
    · refine (stays_peeks _).bind fun isExpression => ?_
      split
      · exact lays_expressionStatement hself hc
      · exact lays_importDeclaration hc
    · exact lays_otherStatement hself single hc
  · exact lays_expressionStatement hself hc

end Rules

end Grammar
end Source
end DependencyUse
