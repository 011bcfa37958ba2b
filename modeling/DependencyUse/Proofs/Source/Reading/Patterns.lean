/-
# Words, property keys, patterns and parameters stand in the text

The facts about the rules of the grammar are proved rule by rule, each for readers of all goals
that have these facts themselves (`Rules.Lay`): what the rules use to read what stands inside.

| read | stands in the text with |
| --- | --- |
| a property key, a pattern, a parameter | the expressions in it |
| a name that declares something | nothing, but it takes a token |
-/

import DependencyUse.Proofs.Source.Reading.Ensures

namespace DependencyUse
namespace Source

open Reader

/-- The operand stands between two offsets. -/
def Operand.Spans (o : Operand) : Nat → Nat → Prop := o.expr.Spans

/-- The expressions in the pattern stand between two offsets. -/
def Binding.Spans (b : Binding) : Nat → Nat → Prop := SpanParts b.parts

theorem Operand.Spans.single {o : Operand} {lo hi : Nat} (h : o.Spans lo hi) :
    SpanParts [o.part] lo hi :=
  Expr.Spans.single h

theorem Operand.Spans.pair {a b : Operand} {lo mid hi : Nat} (ha : a.Spans lo mid)
    (hb : b.Spans mid hi) : SpanParts [a.part, b.part] lo hi :=
  ha.single.append hb.single

/-- Readers of all goals whose results stand in the text. -/
structure Rules.Lay (rules : Rules) : Prop where
  expression : rules.expression.Lays Operand.Spans
  assignment (arrowType : Bool) : (rules.assignment arrowType).Lays Operand.Spans
  binary (level : Nat) : (rules.binary level).Lays Operand.Spans
  unary : rules.unary.Lays Operand.Spans
  leftHand : rules.leftHand.Lays Operand.Spans
  primary : rules.primary.Lays Operand.Spans
  statement (single : Bool) : (rules.statement single).Lays Item.Spans
  type : rules.type.Lays SpanParts
  pattern : rules.pattern.Lays Binding.Spans
  markup : rules.markup.Lays Expr.Spans

theorem lays_nil : (pure [] : Reader (List Part)).Lays SpanParts :=
  fun lo _ hc => .pure ⟨lo, .nil lo, hc⟩

namespace Grammar

variable {c : Cursor} {lo : Nat}

/-! ## Words -/

theorem ne_of_isNameWord {w : String} (h : isNameWord w = true) : w ≠ "" := by
  rintro rfl
  exact absurd h (by decide)

theorem stays_atName : atName.Stays := stays_word.andThen fun _ => stays_pure _

theorem takes_bindingName : bindingName.Takes := by
  intro lo c hc
  rw [bindingName]
  refine ensures_word.bind_stay fun w hw => ?_
  split
  · rename_i hname
    obtain ⟨escaped, hkind⟩ := hw (ne_of_isNameWord hname)
    refine stays_read.bind fun ctx => ?_
    refine (keepsToken_flagIf _).bind hc fun _ c₁ hc₁ htoken => ?_
    refine (ensures_advance_solid hc₁ (by rw [htoken, hkind, Kind.isSolid])).bind fun _ c₂ hc₂ => ?_
    exact .pure hc₂
  · exact .reject

theorem ensures_anyWord (hc : c.At lo) :
    anyWord.Ensures c fun w c' => '.' ∉ w.toList ∧ c'.At (lo + 1) := by
  rw [anyWord]
  refine ensures_word.bind_stay fun w hw => ?_
  split
  · exact .reject
  · rename_i hne
    obtain ⟨escaped, hkind⟩ := hw (by simpa using hne)
    refine (ensures_advance_solid hc (by rw [hkind, Kind.isSolid])).bind fun _ c₁ hc₁ => ?_
    exact .pure ⟨hc.fits.undotted w escaped hkind, hc₁⟩

theorem moves_anyWord : anyWord.Moves :=
  fun _ _ hc => (ensures_anyWord hc).mono fun _ _ h => h.2.mono (Nat.le_succ _)

theorem moves_assignTo (o : Operand) (simple : Bool) : (assignTo o simple).Moves := by
  intro lo c hc
  rw [assignTo]
  split
  · exact .pure hc
  · extract_lets jp
    split
    · exact .reject
    · refine ensures_modify.mono fun _ c' h => ?_
      subst h
      exact ⟨hc.fits, hc.le⟩
  · exact .reject

/-! ## Property keys -/

theorem stays_literalKey : literalKey.Stays := by
  intro c
  rw [literalKey]
  refine .token_bind ?_
  refine .get_bind ?_
  extract_lets regex
  clear_value regex
  cases regex with
  | some rest => exact (stays_peeks _).bind fun closes => .pure rfl
  | none =>
    refine (stays_peeks _).bind fun closes => ?_
    split
    · exact .pure rfl
    · split <;> exact .pure rfl

/-- A property key stands in the text with its expression; a plain word takes a token. -/
theorem ensures_propertyKey {self : Rules} (hself : self.Lay) (hc : c.At lo) :
    (propertyKey self).Ensures c fun key c' =>
      ∃ hi, SpanParts key.parts lo hi ∧ c'.At hi ∧ (key.plain = true → lo < hi) := by
  rw [propertyKey]
  refine .token_bind ?_
  split
  · rename_i w escaped hkind
    refine (ensures_advance_solid hc (by rw [hkind, Kind.isSolid])).bind fun _ c₁ hc₁ => ?_
    exact .pure ⟨lo + 1, (SpanParts.nil lo).upTo lo.le_succ, hc₁, fun _ => lo.lt_succ_self⟩
  iterate 4
    exact moves_advance.bind hc fun _ c₁ hc₁ => .pure ⟨lo, .nil lo, hc₁, by simp⟩
  · refine moves_advance.bind hc fun _ c₁ hc₁ => stays_literalKey.bind fun name => ?_
    refine (hself.assignment true).nested.bind hc₁ fun e c₂ hi he hc₂ => ?_
    refine (moves_expectSign _).bind hc₂ fun _ c₃ hc₃ => ?_
    exact .pure ⟨hi, he.single, hc₃, by simp⟩
  · exact .reject

/-- The expression in the key stands between two offsets. -/
def Key.Spans (key : Key) : Nat → Nat → Prop := SpanParts key.parts

theorem lays_propertyKey {self : Rules} (hself : self.Lay) : (propertyKey self).Lays Key.Spans :=
  fun _ _ hc => (ensures_propertyKey hself hc).mono fun _ _ ⟨hi, hkey, hc', _⟩ => ⟨hi, hkey, hc'⟩

/-! ## Patterns -/

section Rules

variable {self : Rules} (hself : self.Lay)
include hself

theorem lays_annotated : ( typeAnnotation self).Lays SpanParts := by
  intro lo c hc
  rw [ typeAnnotation]
  refine stays_read.bind fun ctx => ?_
  split
  · refine (moves_eatSign _).bind hc fun colon c₁ hc₁ => ?_
    split
    · refine hself.type.bind hc₁ fun ps c₂ hi hps hc₂ => ?_
      exact .pure ⟨hi, hps.types, hc₂⟩
    · exact .pure ⟨lo, .nil lo, hc₁⟩
  · exact .pure ⟨lo, .nil lo, hc⟩

theorem lays_initialiser : (initialiser self).Lays SpanParts := by
  intro lo c hc
  rw [initialiser]
  refine (moves_eatSign _).bind hc fun equals c₁ hc₁ => ?_
  split
  · refine (hself.assignment true).nested.bind hc₁ fun e c₂ hi he hc₂ => ?_
    exact .pure ⟨hi, he.single, hc₂⟩
  · exact .pure ⟨lo, .nil lo, hc₁⟩

theorem lays_elementPattern : (elementPattern self).Lays Binding.Spans := by
  intro lo c hc
  rw [elementPattern]
  refine hself.pattern.bind hc fun b c₁ mid hb hc₁ => ?_
  refine (lays_initialiser hself).bind hc₁ fun init c₂ hi hinit hc₂ => ?_
  exact .pure ⟨hi, SpanParts.append hb hinit, hc₂⟩

theorem lays_restPattern (close : String) : (restPattern self close).Lays Binding.Spans := by
  intro lo c hc
  rw [restPattern]
  refine moves_advance.bind hc fun _ c₁ hc₁ => ?_
  refine hself.pattern.bind hc₁ fun b c₂ hi hb hc₂ => (stays_atSign close).bind fun closes => ?_
  exact (keepsToken_flagIf _).moves.bind hc₂ fun _ c₃ hc₃ => .pure ⟨hi, hb, hc₃⟩

theorem lays_fieldPattern :
    (fieldPattern self).Lays fun (field : List (String × String) × Binding) => field.2.Spans := by
  intro lo c hc
  rw [fieldPattern]
  refine (stays_atSign _).bind fun dots => ?_
  split
  · refine (lays_restPattern hself _).bind hc fun b c₁ hi hb hc₁ => ?_
    extract_lets jp
    split
    · exact .pure ⟨hi, hb, hc₁⟩
    · exact keepsToken_flag.moves.bind hc₁ fun _ c₂ hc₂ => .pure ⟨hi, hb, hc₂⟩
  · refine stays_word.bind fun w => stays_read.bind fun ctx => ?_
    refine (lays_propertyKey hself).bind hc fun key c₁ mid hkey hc₁ => ?_
    extract_lets jp
    split
    · exact .reject_bind
    refine (moves_eatSign _).bind hc₁ fun colon c₂ hc₂ => ?_
    split
    · refine (lays_elementPattern hself).bind hc₂ fun b c₃ hi hb hc₃ => ?_
      exact .pure ⟨hi, SpanParts.append hkey hb, hc₃⟩
    · split
      · exact .reject_bind
      refine (keepsToken_flagIf _).moves.bind hc₂ fun _ c₃ hc₃ => ?_
      refine (lays_initialiser hself).bind hc₃ fun init c₄ hi hinit hc₄ => ?_
      exact .pure ⟨hi, SpanParts.after hinit (SpanParts.le hkey), hc₄⟩

theorem lays_pattern : (pattern self).Lays Binding.Spans := by
  intro lo c hc
  rw [pattern]
  refine stays_token.bind fun t => ?_
  split
  · refine moves_advance.bind hc fun _ c₁ hc₁ => ?_
    refine Ensures.bind (P := Laid (Chained Binding.Spans) lo)
      (.loop (I := fun (rev : List Binding) => Laid (Chained Binding.Spans) lo rev.reverse)
        ⟨lo, rfl, hc₁⟩ fun rev c ⟨mid, hrev, hc⟩ => ?_)
      fun items c₂ ⟨hi, hitems, hc₂⟩ => .pure ⟨hi, hitems.spanParts_flatMap, hc₂⟩
    refine (moves_eatSign _).bind hc fun closes c₂ hc₂ => ?_
    split
    · exact .pure ⟨mid, hrev, hc₂⟩
    refine (moves_eatSign _).bind hc₂ fun hole c₃ hc₃ => ?_
    split
    · exact .pure ⟨mid, hrev, hc₃⟩
    refine (stays_atSign _).bind fun dots => ?_
    extract_lets jp
    refine (lays_restPattern hself _).bind_ite (lays_elementPattern hself) hc₃
      fun b c₄ hi hb hc₄ => (stays_atSign _).bind fun ends => ?_
    extract_lets jp
    exact (moves_expectSign _).bind_unless hc₄ fun _ c₅ hc₅ => .pure ⟨hi, hrev.push hb, hc₅⟩
  · refine moves_advance.bind hc fun _ c₁ hc₁ => ?_
    refine (lays_commaList _ (lays_fieldPattern hself)).bind hc₁ fun fields c₂ hi hfields hc₂ => ?_
    refine (moves_expectSign _).bind hc₂ fun _ c₃ hc₃ => ?_
    exact .pure ⟨hi, hfields.spanParts_flatMap, hc₃⟩
  · exact takes_bindingName.moves.bind hc fun id c₁ hc₁ => .pure ⟨lo, .nil lo, hc₁⟩

/-! ## Decorators and parameters -/

theorem lays_decorators : (decorators self).Lays SpanParts := by
  intro lo c hc
  refine .loop (I := Laid SpanParts lo) ⟨lo, .nil lo, hc⟩ fun parts c ⟨mid, hparts, hc⟩ => ?_
  refine (moves_eatSign _).bind hc fun at_ c₁ hc₁ => ?_
  split
  · refine hself.leftHand.inContext.bind hc₁ fun e c₂ hi he hc₂ => ?_
    exact .pure ⟨hi, hparts.append he.single, hc₂⟩
  · exact .pure ⟨mid, hparts, hc₁⟩

omit hself in
theorem moves_parameterModifiers : parameterModifiers.Moves := by
  refine moves_loop _ fun _ lo c hc => stays_word.bind fun w => ?_
  extract_lets known
  exact stays_read.bind fun ctx => (stays_peeks _).bind fun applies => moves_skip hc

theorem lays_parameter :
    (parameter self).Lays fun (parameter : Bool × List Part) => SpanParts parameter.2 := by
  intro lo c hc
  rw [parameter]
  refine (lays_decorators hself).bind hc fun decorated c₁ mid hdecorated hc₁ => ?_
  refine moves_parameterModifiers.bind hc₁ fun _ c₂ hc₂ => stays_read.bind fun ctx => ?_
  extract_lets typed
  refine (moves_eatSign _).bind hc₂ fun dots c₃ hc₃ => ?_
  split
  · refine hself.pattern.bind hc₃ fun b c₄ mid' hb hc₄ => ?_
    extract_lets jp
    refine (moves_eatSign _).bind_if (a := false) hc₄ fun _ c₅ hc₅ => ?_
    refine (lays_annotated hself).bind hc₅ fun annotation c₆ mid'' hannotation hc₆ => ?_
    refine (lays_initialiser hself).bind hc₆ fun init c₇ hi hinit hc₇ => ?_
    refine (keepsToken_flagIf _).moves.bind hc₇ fun _ c₈ hc₈ => (stays_atSign _).bind fun last => ?_
    refine (keepsToken_flagIf _).moves.bind hc₈ fun _ c₉ hc₉ => .pure ⟨hi, ?_, hc₉⟩
    exact ((hdecorated.append hb).append hannotation).mono lo.le_refl hinit.le
  refine (stays_atWord _).bind fun this => ?_
  split
  · refine moves_advance.bind hc₃ fun _ c₄ hc₄ => ?_
    refine (lays_annotated hself).bind hc₄ fun annotation c₅ hi hannotation hc₅ => ?_
    exact .pure ⟨hi, hdecorated.append hannotation, hc₅⟩
  · refine hself.pattern.bind hc₃ fun b c₄ mid' hb hc₄ => ?_
    extract_lets jp
    refine (moves_eatSign _).bind_if (a := false) hc₄ fun _ c₅ hc₅ => ?_
    refine (lays_annotated hself).bind hc₅ fun annotation c₆ mid'' hannotation hc₆ => ?_
    refine (lays_initialiser hself).bind hc₆ fun init c₇ hi hinit hc₇ => .pure ⟨hi, ?_, hc₇⟩
    exact ((hdecorated.append hb).append hannotation).append hinit

theorem lays_parameters :
    (parameters self).Lays fun (parameters : Parameters) => SpanParts parameters.parts := by
  intro lo c hc
  rw [parameters]
  refine stays_read.bind fun ctx => ?_
  extract_lets typed
  refine (moves_expectSign _).bind hc fun _ c₁ hc₁ => (stays_atWord _).bind fun this => ?_
  extract_lets thisFirst
  refine (lays_commaList _ (lays_parameter hself)).nested.bind hc₁ fun ps c₂ hi hps hc₂ => ?_
  refine (moves_expectSign _).bind hc₂ fun _ c₃ hc₃ => ?_
  exact .pure ⟨hi, hps.spanParts_flatMap, hc₃⟩

end Rules

end Grammar
end Source
end DependencyUse
