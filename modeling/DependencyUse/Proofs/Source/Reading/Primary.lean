/-
# Primary expressions, members and calls stand in the text

A call carries the offset at which its callee starts, which is where the left-hand side around
it starts: reading a left-hand side keeps that what was read stands from this offset on
(`ensures_accessRest`).
-/

import DependencyUse.Proofs.Source.Reading.Functions
import DependencyUse.Proofs.Source.Reading.Markup
import DependencyUse.Source.Grammar.Expressions

namespace DependencyUse
namespace Source
namespace Grammar

open Reader

variable {c : Cursor} {lo mid hi : Nat}

/-! ## Operands -/

theorem lays_pure_nil : (pure [] : Reader (List Expr)).Lays SpanExprs :=
  fun lo _ hc => .pure ⟨lo, by simp only [SpanExprs]; exact lo.le_refl, hc⟩

theorem spans_compound {parts : List Part} (h : SpanParts parts lo hi) :
    (compound parts).Spans lo hi := by
  simp only [Operand.Spans, compound, Expr.Spans]
  exact h

theorem stays_operatorLevel : operatorLevel.Stays := by
  intro c
  rw [operatorLevel]
  refine stays_read.bind fun ctx => stays_token.bind fun t => ?_
  split
  · exact .pure rfl
  · exact .pure rfl
  · exact .pure rfl
  iterate 2 exact stays_onNewLine.bind fun breaks => .pure rfl
  · exact .pure rfl

theorem stays_startsExpression : startsExpression.Stays := by
  intro c
  rw [startsExpression]
  refine stays_token.bind fun t => ?_
  split <;> exact .pure rfl

theorem stays_followsTypeArguments : followsTypeArguments.Stays := by
  intro c
  rw [followsTypeArguments]
  refine stays_token.bind fun t => ?_
  split
  iterate 6 exact .pure rfl
  exact stays_onNewLine.bind fun _ => stays_operatorLevel.bind fun _ =>
    stays_startsExpression.bind fun _ => .pure rfl

section Rules

variable {self : Rules} (hself : self.Lay)
include hself

/-! ## Templates and arguments -/

/-- **A template** stands in the text with its substitutions, after its first token. -/
theorem lays_template (tagged : Bool) : (template self tagged).Lays Expr.Spans := by
  intro lo c hc
  -- Substitutions stand after the first token, which is due at `lo` until there are some.
  refine .loop (I := fun (state : Option String × Bool × List Expr) c => ∃ mid, c.At mid ∧
      ((state.2.2 = [] ∧ mid = lo) ∨ Chained Expr.Spans state.2.2.reverse (lo + 1) mid))
    ⟨lo, hc, .inl ⟨rfl, rfl⟩⟩ fun (cooked?, first, rev) c ⟨mid, hc, hrev⟩ => ?_
  refine .token_bind ?_
  dsimp only at hrev ⊢
  split
  · rename_i cooked last hkind
    refine (keepsToken_flagIf _).bind hc fun _ c₁ hc₁ htoken => ?_
    refine (ensures_advance_solid hc₁ (by rw [htoken, hkind, Kind.isSolid])).bind
      fun _ c₂ hc₂ => ?_
    obtain ⟨m, hrev, hc₂⟩ : ∃ m, Chained Expr.Spans rev.reverse (lo + 1) m ∧ c₂.At m := by
      rcases hrev with ⟨rfl, rfl⟩ | hrev
      · exact ⟨mid + 1, rfl, hc₂⟩
      · exact ⟨mid, hrev, hc₂.mono mid.le_succ⟩
    split
    · refine .pure ⟨m, ?_, hc₂⟩
      simp only [Expr.Spans]
      exact hrev.spanExprs
    refine hself.expression.nested.bind hc₂ fun e c₃ hi he hc₃ => ?_
    refine (ensures_atSign _).bind_stay fun closes hcloses => ?_
    split
    · rename_i htrue
      refine .get_bind ?_
      split
      · rename_i cooked last rest hread
        refine (moves_retoken_template (hcloses htrue) hread hc₃).bind fun _ c₄ hc₄ => ?_
        exact .pure ⟨hi, hc₄, .inr (hrev.push he)⟩
      · exact .reject
    · exact .reject_bind
  · exact .reject

theorem lays_argument : (argument self).Lays Expr.Spans := by
  intro lo c hc
  rw [argument]
  refine (ensures_eatSign _ hc).bind fun dots c₁ ⟨hc₁, hdots⟩ => ?_
  split
  · rename_i htrue
    refine (hself.assignment true).bind (hdots htrue) fun e c₂ hi he hc₂ => .pure ⟨hi, ?_, hc₂⟩
    simp only [Expr.Spans]
    exact he
  · exact (hself.assignment true).bind hc₁ fun e c₂ hi he hc₂ => .pure ⟨hi, he, hc₂⟩

theorem lays_arguments : (arguments self).Lays SpanExprs := by
  intro lo c hc
  rw [arguments]
  refine (moves_expectSign _).bind hc fun _ c₁ hc₁ => ?_
  refine (lays_commaList _ (lays_argument hself)).nested.bind hc₁ fun args c₂ hi hargs hc₂ => ?_
  exact (moves_expectSign _).bind hc₂ fun _ c₃ hc₃ => .pure ⟨hi, hargs.spanExprs, hc₃⟩

theorem ensures_typeArgumentsHere (hc : c.At lo) :
    (typeArgumentsHere self).Ensures c fun r c' =>
      r.elim (c'.At lo) (Laid SpanParts lo · c') := by
  rw [typeArgumentsHere]
  refine stays_read.bind fun ctx => stays_atOpenAngle.bind fun angle => ?_
  split
  · refine (Ensures.attempt (Q := Laid SpanParts lo) ?_).mono ?_
    · refine moves_eatOpenAngle.bind hc fun opens c₁ hc₁ => ?_
      extract_lets jp
      split
      · refine (lays_commaList _ hself.type).bind hc₁ fun args c₂ hi hargs hc₂ => ?_
        refine .get_bind ?_
        extract_lets jp
        split
        · exact .reject_bind
        refine (moves_expectSign _).bind hc₂ fun _ c₃ hc₃ => ?_
        refine stays_followsTypeArguments.bind fun follows => ?_
        split
        · exact .pure ⟨hi, hargs.spanParts_flatten, hc₃⟩
        · exact .reject_bind
      · exact .reject_bind
    · rintro (_ | ts) c' h
      · exact h ▸ hc
      · exact h
  · exact .pure hc

/-! ## Members and calls -/

omit hself in
theorem ensures_memberAfterDot {object : Expr} (hobject : object.Spans lo mid) (hc : c.At mid) :
    (memberAfterDot object).Ensures c (Laid Operand.Spans lo) := by
  rw [memberAfterDot]
  refine stays_token.bind fun t => ?_
  split
  · refine moves_advance.bind hc fun _ c₁ hc₁ => .pure ⟨mid, ?_, hc₁⟩
    simp only [Operand.Spans, Expr.Spans]
    exact hobject.single
  · refine (ensures_anyWord hc).bind fun w c₁ ⟨hw, hc₁⟩ => ?_
    refine .pure ⟨mid, ?_, hc₁.mono mid.le_succ⟩
    simp only [Operand.Spans, Expr.Spans]
    exact ⟨hw, hobject⟩

theorem ensures_indexAfter {object : Expr} (hobject : object.Spans lo mid) (hc : c.At mid) :
    (indexAfter self object).Ensures c (Laid Operand.Spans lo) := by
  rw [indexAfter]
  refine (moves_expectSign _).bind hc fun _ c₁ hc₁ => ?_
  refine hself.expression.nested.bind hc₁ fun key c₂ hi hkey hc₂ => ?_
  refine (moves_expectSign _).bind hc₂ fun _ c₃ hc₃ => .pure ⟨hi, ?_, hc₃⟩
  simp only [Operand.Spans, Expr.Spans]
  exact ⟨mid, hobject, hkey⟩

/-- A call of what stands from `lo` on. -/
theorem ensures_callOf {callee : Expr} {types : List Part} {mid' : Nat}
    (hcallee : callee.Spans lo mid) (htypes : SpanParts types mid mid') (hc : c.At mid') :
    (callOf self lo callee types).Ensures c (Laid Operand.Spans lo) := by
  rw [callOf]
  refine (lays_arguments hself).bind hc fun args c₁ hi hargs hc₁ => ?_
  split
  · refine .pure ⟨hi, ?_, hc₁⟩
    simp only [Operand.Spans, Expr.Spans] at hcallee ⊢
    obtain ⟨m, hf, hts⟩ := hcallee
    exact ⟨lo.le_refl, m, hf, mid', hts.upTo htypes.le, hargs⟩
  · refine .pure ⟨hi, ?_, hc₁⟩
    simp only [Operand.Spans, Expr.Spans]
    exact ⟨lo.le_refl, mid, hcallee, mid', htypes, hargs⟩

theorem ensures_optionalLink {start : Nat} {calls : Bool} {e : Expr} (he : e.Spans lo mid)
    (hstart : calls = true → start = lo) (hc : c.At mid) :
    (optionalLink self start calls e).Ensures c (Laid Operand.Spans lo) := by
  rw [optionalLink]
  refine moves_advance.bind hc fun _ c₁ hc₁ => ?_
  extract_lets jp
  have hjp : ∀ c : Cursor, c.At mid →
      (jp ()).Ensures c (Laid Operand.Spans lo) := by
    intro c hc
    refine (stays_atSign _).bind fun bracket => ?_
    split
    · exact ensures_indexAfter hself he hc
    · exact ensures_memberAfterDot he hc
  split
  · rename_i hcalls
    obtain rfl := hstart hcalls
    refine (stays_atSign _).bind fun paren => ?_
    split
    · exact ensures_callOf hself he (.nil mid) hc₁
    refine (ensures_typeArgumentsHere hself hc₁).bind fun types c₂ htypes => ?_
    cases types with
    | some ts =>
      obtain ⟨mid', hts, hc₂⟩ := htypes
      refine (stays_atSign _).bind fun paren => ?_
      extract_lets jp
      split
      · exact ensures_callOf hself he hts hc₂
      · exact .reject_bind
    | none => exact hjp c₂ htypes
  · exact hjp c₁ hc₁

/-- **What is read after a first operand** stands from where that operand starts. -/
theorem ensures_accessRest {start : Nat} {calls : Bool} {first : Operand}
    (hfirst : first.Spans lo mid) (hstart : calls = true → start = lo) (hc : c.At mid) :
    (accessRest self start calls first).Ensures c fun a c' =>
      ∃ hi, a.operand.Spans lo hi ∧ c'.At hi := by
  refine .loop (I := fun (a : Access) c => ∃ mid, a.operand.Spans lo mid ∧ c.At mid)
    ⟨mid, hfirst, hc⟩ fun a c ⟨mid, ha, hc⟩ => ?_
  refine stays_read.bind fun ctx => ?_
  extract_lets e
  refine stays_token.bind fun t => ?_
  split
  · refine moves_advance.bind hc fun _ c₁ hc₁ => ?_
    exact (ensures_memberAfterDot ha hc₁).bind fun o c₂ h => .pure h
  · exact (ensures_optionalLink hself ha hstart hc).bind fun o c₁ h => .pure h
  · split
    · exact .pure ⟨mid, ha, hc⟩
    · exact (ensures_indexAfter hself ha hc).bind fun o c₁ h => .pure h
  · refine stays_onNewLine.bind fun breaks => ?_
    split
    · exact .pure ⟨mid, ha, hc⟩
    refine moves_advance.bind hc fun _ c₁ hc₁ => .pure ⟨mid, ?_, hc₁⟩
    simp only [Operand.Spans, Expr.Spans]
    exact ⟨mid, ha, .nil mid⟩
  · refine (keepsToken_flagIf _).moves.bind hc fun _ c₁ hc₁ => ?_
    refine (lays_template hself true).bind hc₁ fun t c₂ hi ht hc₂ => .pure ⟨hi, ?_, hc₂⟩
    exact spans_compound (ha.single.append ht.single)
  · split
    · exact .pure ⟨mid, ha, hc⟩
    · rename_i hcalls
      obtain rfl := hstart (by simpa using hcalls)
      exact (ensures_callOf hself ha (.nil mid) hc).bind fun o c₁ h => .pure h
  · refine (ensures_typeArgumentsHere hself hc).bind fun types c₁ htypes => ?_
    cases types with
    | some ts =>
      obtain ⟨hi, hts, hc₁⟩ := htypes
      refine .pure ⟨hi, ?_, hc₁⟩
      simp only [Operand.Spans, Expr.Spans]
      exact ⟨mid, ha, hts⟩
    | none => exact .pure ⟨mid, ha, htypes⟩

/-- **A left-hand side** stands in the text, and so does each call in it from its own offset. -/
theorem lays_leftHand : (leftHand self).Lays Operand.Spans := by
  intro lo c hc
  rw [leftHand]
  refine .token_bind ?_
  extract_lets start
  refine hself.primary.bind hc.start fun first c₁ mid hfirst hc₁ => ?_
  refine (ensures_accessRest hself hfirst (fun _ => rfl) hc₁).bind fun a c₂ ⟨hi, ha, hc₂⟩ => ?_
  have ha : a.operand.Spans lo hi := Expr.Spans.mono ha hc.le hi.le_refl
  split
  · exact .pure ⟨hi, spans_compound ha.single, hc₂⟩
  · exact .pure ⟨hi, ha, hc₂⟩

theorem lays_construct : (construct self).Lays Operand.Spans := by
  intro lo c hc
  rw [construct]
  refine .token_bind ?_
  extract_lets start
  refine (takes_expectWord (by decide)).bind hc.start fun _ c₁ hc₁ => ?_
  refine (moves_eatSign _).bind hc₁ fun dot c₂ hc₂ => ?_
  split
  · refine (moves_expectWord _).bind hc₂ fun _ c₃ hc₃ => ?_
    exact .pure ⟨lo, spans_compound (.nil lo), hc₃.mono (hc.le.trans (Nat.le_succ _))⟩
  refine hself.primary.bind hc₂ fun base c₃ mid hbase hc₃ => ?_
  extract_lets jp
  have hjp : ∀ c : Cursor, c.At mid →
      (jp ()).Ensures c (Laid Operand.Spans lo) := by
    intro c hc'
    refine (ensures_accessRest hself hbase (by simp) hc').bind fun a c₁ ⟨mid', ha, hc₁⟩ => ?_
    refine (keepsToken_flagIf _).moves.bind hc₁ fun _ c₂ hc₂ => ?_
    refine (stays_atSign _).bind fun paren => ?_
    extract_lets jp
    refine (lays_arguments hself).bind_ite (lays_pure_nil) hc₂ fun args c₃ hi hargs hc₃ => ?_
    simp only [jp]
    split
    · rename_i f ts hcallee
      refine .pure ⟨hi, ?_, hc₃⟩
      simp only [Operand.Spans, hcallee, Expr.Spans] at ha ⊢
      obtain ⟨m, hf, hts⟩ := ha
      exact ⟨hc.le, m, hf, mid', hts, hargs⟩
    · refine .pure ⟨hi, ?_, hc₃⟩
      simp only [Operand.Spans, Expr.Spans]
      exact ⟨hc.le, mid', ha, mid', .nil mid', hargs⟩
  split
  · exact keepsToken_flag.moves.bind hc₃ fun _ c₄ hc₄ => hjp c₄ hc₄
  · exact hjp c₃ hc₃

theorem ensures_importCall {start : Nat} (hstart : lo ≤ start) (hc : c.At (start + 1)) :
    (importCall self start).Ensures c (Laid Operand.Spans lo) := by
  rw [importCall]
  refine (moves_expectSign _).bind hc fun _ c₁ hc₁ => ?_
  refine (hself.assignment true).nested.bind hc₁ fun source c₂ mid hsource hc₂ => ?_
  refine (moves_eatSign _).bind hc₂ fun comma c₃ hc₃ => ?_
  extract_lets jp
  have hjp : ∀ options c hi, SpanExprs options mid hi → c.At hi →
      (jp options).Ensures c (Laid Operand.Spans lo) := by
    intro options c hi hoptions hc
    refine (moves_eatSign _).bind hc fun _ c₁ hc₁ => ?_
    refine (moves_expectSign _).bind hc₁ fun _ c₂ hc₂ => .pure ⟨hi, ?_, hc₂⟩
    simp only [Operand.Spans, Expr.Spans]
    exact ⟨hstart, mid, hsource, hoptions⟩
  split
  · refine (stays_atSign _).bind fun closes => ?_
    split
    · exact lays_pure_nil.bind hc₃ hjp
    · refine (hself.assignment true).nested.bind hc₃ fun o c₄ hi ho hc₄ => .pure_bind ?_
      exact hjp _ c₄ hi (Chained.spanExprs ⟨hi, ho, rfl⟩) hc₄
  · exact lays_pure_nil.bind hc₃ hjp

theorem lays_importExpression : (importExpression self).Lays Operand.Spans := by
  intro lo c hc
  rw [importExpression]
  refine .token_bind ?_
  extract_lets start jp
  refine (takes_expectWord (by decide)).bind hc.start fun _ c₁ hc₁ => ?_
  refine (moves_eatSign _).bind hc₁ fun dot c₂ hc₂ => ?_
  split
  · refine (moves_eatWord _).bind hc₂ fun isMeta c₃ hc₃ => ?_
    split
    · exact .pure ⟨lo, spans_compound (.nil lo), hc₃.mono (hc.le.trans (Nat.le_succ _))⟩
    refine (moves_eatWord _).bind hc₃ fun defers c₄ hc₄ => ?_
    exact (moves_expectWord _).bind_unless (a := ()) hc₄ fun _ c₅ hc₅ =>
      ensures_importCall hself hc.le hc₅
  · exact ensures_importCall hself hc.le hc₂

/-! ## Literals -/

/-- The expressions in the element stand between two offsets. -/
def Element.Spans (e : Element) : Nat → Nat → Prop := SpanParts e.parts

omit hself in
theorem spans_literalOf {es : List Element} {trailingComma : Bool}
    (h : Chained Element.Spans es lo hi) :
    (literalOf es trailingComma).Spans lo hi := by
  simp only [Operand.Spans, literalOf, Expr.Spans]
  exact h.spanParts_flatMap

theorem lays_spreadElement :
    (spreadElement self).Lays Element.Spans := by
  intro lo c hc
  rw [spreadElement]
  exact (hself.assignment true).bind hc fun o c₁ hi ho hc₁ => .pure ⟨hi, ho.single, hc₁⟩

theorem lays_arrayLiteral : (arrayLiteral self).Lays Operand.Spans := by
  intro lo c hc
  rw [arrayLiteral]
  refine (moves_expectSign _).bind hc fun _ c₁ hc₁ => .inContext ?_
  refine .loop (I := fun (state : List Element × Bool) =>
      Laid (Chained Element.Spans) lo state.1.reverse)
    ⟨lo, rfl, hc₁⟩ fun (rev, comma) c ⟨mid, hrev, hc⟩ => ?_
  refine (moves_eatSign _).bind hc fun closes c₂ hc₂ => ?_
  split
  · exact .pure ⟨mid, spans_literalOf hrev, hc₂⟩
  refine (moves_eatSign _).bind hc₂ fun hole c₃ hc₃ => ?_
  split
  · exact .pure ⟨mid, hrev.push (SpanParts.nil mid), hc₃⟩
  refine (moves_eatSign _).bind hc₃ fun dots c₄ hc₄ => ?_
  extract_lets jp
  have hjp : ∀ (e : Element) (c : Cursor) (hi : Nat), SpanParts e.parts mid hi → c.At hi →
      (jp e).Ensures c fun r c' => r.elim
        (Laid (Chained Element.Spans) lo ·.1.reverse c') (Laid Operand.Spans lo · c') := by
    intro e c hi he hc
    refine (moves_eatSign _).bind hc fun comma c₁ hc₁ => ?_
    split
    · exact .pure ⟨hi, hrev.push he, hc₁⟩
    refine (stays_atSign _).bind fun closes => ?_
    extract_lets jp
    split
    · exact .pure ⟨hi, hrev.push he, hc₁⟩
    · exact .reject_bind
  split
  · exact (lays_spreadElement hself).bind hc₄ hjp
  · refine (hself.assignment true).bind hc₄ fun o c₅ hi ho hc₅ => .pure_bind ?_
    exact hjp _ c₅ hi ho.single hc₅

theorem ensures_methodElement {key : Key} (hkey : key.Spans lo mid) (async generator : Bool)
    (hc : c.At mid) :
    (methodElement self key async generator).Ensures c (Laid Element.Spans lo) := by
  rw [methodElement]
  refine (lays_functionTail hself async generator).bind hc fun tail c₁ hi htail hc₁ => ?_
  extract_lets jp
  split
  · exact .pure ⟨hi, SpanParts.append hkey htail, hc₁⟩
  · exact .reject_bind

/-- A shorthand property after its name. -/
theorem ensures_shorthandElement {name : String} (hname : '.' ∉ name.toList) (hc : c.At (lo + 1)) :
    (shorthandElement self name).Ensures c (Laid Element.Spans lo) := by
  have hspans : SpanParts [.expr (.name name)] lo (lo + 1) := spanParts_name hname lo.lt_succ_self
  rw [shorthandElement]
  refine stays_read.bind fun ctx => ?_
  extract_lets jp
  split
  · refine (moves_eatSign _).bind hc fun equals c₁ hc₁ => ?_
    split
    · refine (hself.assignment true).nested.bind hc₁ fun init c₂ hi hinit hc₂ => ?_
      refine ensures_modify.bind fun _ c₃ h => ?_
      subst h
      exact .pure ⟨hi, hspans.append hinit.single, ⟨hc₂.fits, hc₂.le⟩⟩
    · exact .pure ⟨lo + 1, hspans, hc₁⟩
  · exact .reject_bind

theorem lays_property : (property self).Lays Element.Spans := by
  intro lo c hc
  rw [property]
  refine (moves_eatSign _).bind hc fun dots c₁ hc₁ => ?_
  split
  · exact lays_spreadElement hself hc₁
  refine (stays_peeks _).bind fun accessorDue => ?_
  split
  · refine (stays_atWord _).bind fun setter => moves_keyword.bind hc₁ fun _ c₂ hc₂ => ?_
    refine (lays_propertyKey hself).bind hc₂ fun key c₃ mid hkey hc₃ => ?_
    refine (lays_functionTail hself false false).bind hc₃ fun tail c₄ hi htail hc₄ => ?_
    extract_lets jp
    split
    · refine (keepsToken_flagIf _).moves.bind hc₄ fun _ c₅ hc₅ => ?_
      exact .pure ⟨hi, SpanParts.append hkey htail, hc₅⟩
    · exact .reject_bind
  refine (stays_atWord _).bind fun async => (stays_peeks _).bind fun applies => ?_
  extract_lets jp
  have hjp : ∀ async, (jp async).Lays Element.Spans := by
    intro async lo c hc
    refine (moves_eatSign _).bind hc fun generator c₁ hc₁ => ?_
    refine (ensures_word_undotted hc₁).bind_stay fun name hname => ?_
    refine (ensures_propertyKey hself hc₁).bind fun key c₂ ⟨mid, hkey, hc₂, hplain⟩ => ?_
    extract_lets jp
    split
    · exact .reject_bind
    refine (stays_atSign _).bind fun paren => (stays_atSign _).bind fun angle => ?_
    split
    · exact ensures_methodElement hself hkey async generator hc₂
    refine (moves_eatSign _).bind hc₂ fun colon c₃ hc₃ => ?_
    split
    · refine (hself.assignment true).bind hc₃ fun o c₄ hi ho hc₄ => ?_
      exact .pure ⟨hi, hkey.append ho.single, hc₄⟩
    · split
      · rename_i htrue
        exact ensures_shorthandElement hself hname (hc₃.mono (hplain htrue))
      · exact .reject_bind
  split
  · exact moves_keyword.bind hc₁ fun _ c₂ hc₂ => .pure_bind (hjp true hc₂)
  · exact .pure_bind (hjp false hc₁)

theorem lays_objectLiteral : (objectLiteral self).Lays Operand.Spans := by
  intro lo c hc
  rw [objectLiteral]
  refine (moves_expectSign _).bind hc fun _ c₁ hc₁ => .inContext ?_
  refine .loop (I := fun (state : List Element × Bool) =>
      Laid (Chained Element.Spans) lo state.1.reverse)
    ⟨lo, rfl, hc₁⟩ fun (rev, comma) c ⟨mid, hrev, hc⟩ => ?_
  refine (moves_eatSign _).bind hc fun closes c₂ hc₂ => ?_
  split
  · exact .pure ⟨mid, spans_literalOf hrev, hc₂⟩
  refine (lays_property hself).bind hc₂ fun e c₃ hi he hc₃ => ?_
  refine (moves_eatSign _).bind hc₃ fun comma c₄ hc₄ => ?_
  split
  · exact .pure ⟨hi, hrev.push he, hc₄⟩
  refine (stays_atSign _).bind fun closes => ?_
  extract_lets jp
  split
  · exact .pure ⟨hi, hrev.push he, hc₄⟩
  · exact .reject_bind

theorem lays_parenthesised : (parenthesised self).Lays Operand.Spans := by
  intro lo c hc
  rw [parenthesised]
  refine (moves_expectSign _).bind hc fun _ c₁ hc₁ => ?_
  refine hself.expression.nested.bind hc₁ fun o c₂ hi ho hc₂ => ?_
  refine (moves_expectSign _).bind hc₂ fun _ c₃ hc₃ => .pure ⟨hi, ?_, hc₃⟩
  simp only [Operand.Spans, Expr.Spans]
  exact ⟨hi, ho, .nil hi⟩

omit hself in
theorem lays_regex : regex.Lays Operand.Spans := by
  intro lo c hc
  rw [regex]
  refine .get_bind ?_
  split
  · refine (ensures_jump (hc.le.trans (Nat.le_add_right _ _))).bind fun _ c₁ hc₁ => ?_
    exact .pure ⟨lo, spans_compound (.nil lo), hc₁⟩
  · exact .reject

omit hself in
theorem stays_asyncFunctionDue : asyncFunctionDue.Stays := by
  intro c
  rw [asyncFunctionDue]
  refine (stays_atWord _).bind fun async => ?_
  split
  · exact stays_peeks _ _
  · exact .pure rfl

theorem lays_functionExpression (async : Bool) :
    (functionExpression self async).Lays Operand.Spans := by
  intro lo c hc
  rw [functionExpression]
  refine moves_keyword.bind_if (a := ()) hc fun _ c₁ hc₁ => ?_
  refine (lays_function hself async false).bind hc₁
    fun (name, parts, hasBody) c₂ hi hparts hc₂ => ?_
  dsimp -zeta only at hparts ⊢
  extract_lets jp
  split
  · exact .pure ⟨hi, spans_compound hparts, hc₂⟩
  · exact .reject_bind

/-! ## Primary expressions -/

theorem ensures_primaryWord {w : String} {escaped : Bool} (hkind : c.token.kind = .word w escaped)
    (hc : c.At lo) :
    (primaryWord self w).Ensures c (Laid Operand.Spans lo) := by
  have hsolid : c.token.kind.isSolid = true := by rw [hkind, Kind.isSolid]
  unfold primaryWord
  split
  · refine (ensures_keyword_solid hc hsolid).bind fun _ c₁ hc₁ => .pure ⟨lo + 1, ?_, hc₁⟩
    simp only [Operand.Spans, Expr.Spans]
    exact lo.lt_succ_self
  iterate 3
    exact moves_keyword.bind hc fun _ c₁ hc₁ => .pure ⟨lo, spans_compound (.nil lo), hc₁⟩
  · exact lays_functionExpression hself false hc
  · exact (lays_classTail hself).bind hc fun tail c₁ hi htail hc₁ =>
      .pure ⟨hi, spans_compound htail, hc₁⟩
  · exact lays_construct hself hc
  · exact lays_importExpression hself hc
  · refine moves_keyword.bind hc fun _ c₁ hc₁ => stays_sign.bind fun s => ?_
    extract_lets jp
    split
    · exact .pure ⟨lo, spans_compound (.nil lo), hc₁⟩
    · exact .reject_bind
  · refine stays_asyncFunctionDue.bind fun async => ?_
    split
    · exact lays_functionExpression hself true hc
    refine stays_read.bind fun ctx => ?_
    extract_lets jp
    split
    · refine (ensures_advance_solid hc hsolid).bind fun _ c₁ hc₁ => .pure ⟨lo + 1, ?_, hc₁⟩
      simp only [Operand.Spans, Expr.Spans]
      exact ⟨hc.fits.undotted w escaped hkind, lo.lt_succ_self⟩
    · exact .reject_bind

theorem lays_primary : (primary self).Lays Operand.Spans := by
  intro lo c hc
  rw [primary]
  refine .token_bind ?_
  split
  · rename_i w escaped hkind
    exact ensures_primaryWord hself hkind hc
  · rename_i s hkind
    refine (ensures_advance_solid hc (by rw [hkind, Kind.isSolid])).bind fun _ c₁ hc₁ => ?_
    refine .pure ⟨lo + 1, ?_, hc₁⟩
    simp only [Operand.Spans, Expr.Spans]
    exact lo.lt_succ_self
  iterate 2
    exact moves_advance.bind hc fun _ c₁ hc₁ => .pure ⟨lo, spans_compound (.nil lo), hc₁⟩
  · exact (lays_template hself false).bind hc fun e c₁ hi he hc₁ => .pure ⟨hi, he, hc₁⟩
  · exact lays_parenthesised hself hc
  · exact lays_arrayLiteral hself hc
  · exact lays_objectLiteral hself hc
  iterate 2 exact lays_regex hc
  · refine (lays_decorators hself).bind hc fun ds c₁ mid hds hc₁ => ?_
    refine (lays_classTail hself).bind hc₁ fun tail c₂ hi htail hc₂ => ?_
    exact .pure ⟨hi, spans_compound (hds.append htail), hc₂⟩
  · refine hself.markup.bind hc fun e c₁ hi he hc₁ => ?_
    exact moves_advance.bind hc₁ fun _ c₂ hc₂ => .pure ⟨hi, he, hc₂⟩
  · exact .reject

end Rules

end Grammar
end Source
end DependencyUse
