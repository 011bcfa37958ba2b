/-
# Types stand in the text

What is kept of a type are the expressions in it, in source order; each reader of types passes
on where the next of them can start.
-/

import DependencyUse.Proofs.Source.Reading.Patterns
import DependencyUse.Source.Grammar.Types

namespace DependencyUse
namespace Source
namespace Grammar

open Reader

/-! ## Signs and names -/

theorem stays_atOpenAngle : atOpenAngle.Stays := stays_sign.andThen fun _ => stays_pure _

theorem moves_eatOpenAngle : eatOpenAngle.Moves := by
  intro lo c hc
  rw [eatOpenAngle]
  refine ensures_sign.bind_stay fun s hs => ?_
  split
  · exact moves_advance.bind hc fun _ c₁ hc₁ => .pure hc₁
  · refine .get_bind ?_
    have hkind := hs (by decide)
    have hshorter := hc.fits.shorter (by rw [hkind, Kind.isSolid])
    refine (moves_retoken ?_ (by simp) hc).bind fun _ c₁ hc₁ => ?_
    · cases hhere : c.here with
      | nil => rw [hhere] at hshorter; exact absurd hshorter (Nat.not_lt_zero _)
      | cons x here => exact byteLength_lt_cons List.suffix_rfl x
    exact moves_advance.bind hc₁ fun _ c₂ hc₂ => .pure hc₂
  · exact .pure hc

theorem moves_typeParameterModifiers : typeParameterModifiers.Moves :=
  moves_loop _ fun _ _ _ hc => stays_word.bind fun _ => (stays_peeks _).bind fun _ => moves_skip hc

theorem moves_qualifiedName : qualifiedName.Moves := by
  intro lo c hc
  rw [qualifiedName]
  refine moves_anyWord.bind hc fun _ c₁ hc₁ => ?_
  refine moves_loop _ (fun _ lo c hc => ?_) hc₁
  refine (moves_eatSign _).bind hc fun dot c₂ hc₂ => ?_
  split
  · refine stays_token.bind fun t => ?_
    extract_lets jp
    split
    · exact moves_advance.bind hc₂ fun _ c₃ hc₃ => .pure hc₃
    · exact moves_anyWord.bind hc₂ fun _ c₃ hc₃ => .pure hc₃
  · exact .pure hc₂

theorem moves_memberEnd : memberEnd.Moves := by
  intro lo c hc
  rw [memberEnd]
  refine (moves_eatSign _).bind hc fun comma c₁ hc₁ => ?_
  split
  · exact .pure hc₁
  · exact moves_semicolon hc₁

theorem moves_eatPolarity : eatPolarity.Moves := by
  intro lo c hc
  rw [eatPolarity]
  refine (stays_atSign _).bind fun plus => (stays_atSign _).bind fun minus => ?_
  split
  · exact moves_advance hc
  · exact .pure hc

section Rules

variable {self : Rules} (hself : self.Lay)
include hself

/-! ## Arguments, parameters and results -/

theorem lays_typeArguments : (typeArguments self).Lays SpanParts := by
  intro lo c hc
  rw [typeArguments]
  refine moves_eatOpenAngle.bind hc fun opens c₁ hc₁ => ?_
  extract_lets jp
  split
  · refine (lays_commaList _ hself.type).bind hc₁ fun args c₂ hi hargs hc₂ => ?_
    refine (moves_expectSign _).bind hc₂ fun _ c₃ hc₃ => ?_
    refine (keepsToken_flagIf _).moves.bind hc₃ fun _ c₄ hc₄ => ?_
    exact .pure ⟨hi, hargs.spanParts_flatten, hc₄⟩
  · exact .reject_bind

theorem lays_typeParameters : (typeParameters self).Lays SpanParts := by
  intro lo c hc
  rw [typeParameters]
  refine stays_read.bind fun ctx => (stays_atSign _).bind fun angle => ?_
  split
  · exact .pure ⟨lo, .nil lo, hc⟩
  refine moves_advance.bind hc fun _ c₁ hc₁ => ?_
  refine (lays_commaList (S := SpanParts) _ fun lo c hc => ?_).bind hc₁
    fun ps c₂ hi hps hc₂ => ?_
  · refine moves_typeParameterModifiers.bind hc fun _ c₁ hc₁ => ?_
    refine takes_bindingName.moves.bind hc₁ fun _ c₂ hc₂ => ?_
    refine (moves_eatWord _).bind hc₂ fun extends_ c₃ hc₃ => ?_
    extract_lets jp
    refine hself.type.bind_ite lays_nil hc₃ fun bound c₄ mid hbound hc₄ => ?_
    refine (moves_eatSign _).bind hc₄ fun equals c₅ hc₅ => ?_
    extract_lets jp
    refine hself.type.bind_ite lays_nil hc₅ fun default c₆ hi hdefault hc₆ => ?_
    exact .pure ⟨hi, hbound.append hdefault, hc₆⟩
  refine (moves_expectSign _).bind hc₂ fun _ c₃ hc₃ => ?_
  refine (keepsToken_flagIf _).moves.bind hc₃ fun _ c₄ hc₄ => ?_
  exact .pure ⟨hi, hps.spanParts_flatten.types, hc₄⟩

theorem lays_sameLineTypeArguments : (sameLineTypeArguments self).Lays SpanParts := by
  intro lo c hc
  rw [sameLineTypeArguments]
  refine stays_atOpenAngle.bind fun angle => stays_onNewLine.bind fun breaks => ?_
  split
  · exact lays_typeArguments hself hc
  · exact .pure ⟨lo, .nil lo, hc⟩

/-- A name of a type, with type arguments if these are due. -/
theorem lays_namedType : (do qualifiedName; sameLineTypeArguments self).Lays SpanParts :=
  fun _ _ hc => moves_qualifiedName.bind hc fun _ _ hc₁ => lays_sameLineTypeArguments hself hc₁

theorem lays_resultType : (resultType self).Lays SpanParts := by
  intro lo c hc
  rw [resultType]
  refine (stays_peeks _).bind fun states => ?_
  extract_lets jp
  split
  · refine moves_advance.bind hc fun _ c₁ hc₁ => moves_advance.bind hc₁ fun _ c₂ hc₂ => ?_
    exact hself.type hc₂
  · exact hself.type hc

theorem lays_annotatedResult : ( resultAnnotation self).Lays SpanParts := by
  intro lo c hc
  rw [ resultAnnotation]
  refine stays_read.bind fun ctx => ?_
  split
  · refine (moves_eatSign _).bind hc fun colon c₁ hc₁ => ?_
    split
    · refine (lays_resultType hself).bind hc₁ fun ps c₂ hi hps hc₂ => ?_
      exact .pure ⟨hi, hps.types, hc₂⟩
    · exact .pure ⟨lo, .nil lo, hc₁⟩
  · exact .pure ⟨lo, .nil lo, hc⟩

/-! ## Members -/

theorem lays_functionType : (functionType self).Lays SpanParts := by
  intro lo c hc
  rw [functionType]
  refine (lays_typeParameters hself).bind hc fun generics c₁ mid hgenerics hc₁ => ?_
  refine (lays_parameters hself).bind hc₁ fun ps c₂ mid' hps hc₂ => ?_
  refine (moves_expectSign _).bind hc₂ fun _ c₃ hc₃ => ?_
  refine (lays_resultType hself).inContext.bind hc₃ fun result c₄ hi hresult hc₄ => ?_
  exact .pure ⟨hi, (hgenerics.append hps).append hresult, hc₄⟩

theorem lays_indexSignature : (indexSignature self).Lays SpanParts := by
  intro lo c hc
  rw [indexSignature]
  refine moves_advance.bind hc fun _ c₁ hc₁ => ?_
  refine takes_bindingName.moves.bind hc₁ fun _ c₂ hc₂ => ?_
  refine (moves_expectSign _).bind hc₂ fun _ c₃ hc₃ => ?_
  refine hself.type.bind hc₃ fun key c₄ mid hkey hc₄ => ?_
  refine (moves_expectSign _).bind hc₄ fun _ c₅ hc₅ => ?_
  refine (lays_annotated hself).bind hc₅ fun value c₆ hi hvalue hc₆ => ?_
  exact .pure ⟨hi, hkey.append hvalue, hc₆⟩

theorem lays_callSignature : (callSignature self).Lays SpanParts := by
  intro lo c hc
  rw [callSignature]
  refine (lays_typeParameters hself).bind hc fun generics c₁ mid hgenerics hc₁ => ?_
  refine (lays_parameters hself).bind hc₁ fun ps c₂ mid' hps hc₂ => ?_
  refine (lays_annotatedResult hself).bind hc₂ fun result c₃ hi hresult hc₃ => ?_
  exact .pure ⟨hi, (hgenerics.append hps).append hresult, hc₃⟩

theorem lays_typeMember : (typeMember self).Lays SpanParts := by
  intro lo c hc
  rw [typeMember]
  refine (stays_atSign _).bind fun paren => (stays_atSign _).bind fun angle => ?_
  split
  · refine (lays_callSignature hself).bind hc fun s c₁ hi hs hc₁ => ?_
    exact moves_memberEnd.bind hc₁ fun _ c₂ hc₂ => .pure ⟨hi, hs, hc₂⟩
  refine (stays_peeks _).bind fun constructs => ?_
  split
  · refine moves_advance.bind hc fun _ c₁ hc₁ => ?_
    refine (lays_callSignature hself).bind hc₁ fun s c₂ hi hs hc₂ => ?_
    exact moves_memberEnd.bind hc₂ fun _ c₃ hc₃ => .pure ⟨hi, hs, hc₃⟩
  refine (moves_loop _ fun _ _ _ hc =>
    stays_word.bind fun _ => (stays_peeks _).bind fun _ => moves_skip hc).bind hc fun _ c₁ hc₁ => ?_
  refine (stays_peeks _).bind fun index => ?_
  split
  · refine (lays_indexSignature hself).bind hc₁ fun s c₂ hi hs hc₂ => ?_
    exact moves_memberEnd.bind hc₂ fun _ c₃ hc₃ => .pure ⟨hi, hs, hc₃⟩
  refine (stays_atWord _).bind fun get => (stays_atWord _).bind fun set => ?_
  extract_lets jp
  have hjp : (jp ()).Lays SpanParts := by
    intro lo c hc
    refine (lays_propertyKey hself).bind hc fun key c₁ mid hkey hc₁ => ?_
    refine (moves_eatSign _).bind hc₁ fun _ c₂ hc₂ => ?_
    refine (stays_atSign _).bind fun paren => (stays_atSign _).bind fun angle => ?_
    extract_lets jp
    refine (lays_callSignature hself).bind_ite (lays_annotated hself) hc₂
      fun signature c₃ hi hsignature hc₃ => ?_
    refine moves_memberEnd.bind hc₃ fun _ c₄ hc₄ => ?_
    exact .pure ⟨hi, SpanParts.append hkey hsignature, hc₄⟩
  split
  · exact (stays_peeks _).bind fun applies => 
      moves_advance.bind_if (a := ()) hc₁ fun _ c₂ hc₂ => hjp hc₂
  · exact hjp hc₁

theorem lays_typeMembers : (typeMembers self).Lays SpanParts := by
  intro lo c hc
  rw [typeMembers]
  refine (moves_expectSign _).bind hc fun _ c₁ hc₁ => ?_
  refine (lays_many _ (lays_typeMember hself)).bind hc₁ fun ms c₂ hi hms hc₂ => ?_
  refine (moves_expectSign _).bind hc₂ fun _ c₃ hc₃ => .pure ⟨hi, hms.spanParts_flatten, hc₃⟩

theorem lays_mappedType : (mappedType self).Lays SpanParts := by
  intro lo c hc
  rw [mappedType]
  refine (moves_expectSign _).bind hc fun _ c₁ hc₁ => ?_
  refine moves_eatPolarity.bind hc₁ fun _ c₂ hc₂ => ?_
  refine (moves_eatWord _).bind hc₂ fun _ c₃ hc₃ => ?_
  refine (moves_expectSign _).bind hc₃ fun _ c₄ hc₄ => ?_
  refine takes_bindingName.moves.bind hc₄ fun _ c₅ hc₅ => ?_
  refine (moves_expectWord _).bind hc₅ fun _ c₆ hc₆ => ?_
  refine hself.type.bind hc₆ fun domain c₇ mid hdomain hc₇ => ?_
  refine (moves_eatWord _).bind hc₇ fun renames c₈ hc₈ => ?_
  extract_lets jp
  refine hself.type.bind_ite lays_nil hc₈ fun renamed c₉ mid' hrenamed hc₉ => ?_
  refine (moves_expectSign _).bind hc₉ fun _ c₁₀ hc₁₀ => ?_
  refine moves_eatPolarity.bind hc₁₀ fun _ c₁₁ hc₁₁ => ?_
  refine (moves_eatSign _).bind hc₁₁ fun _ c₁₂ hc₁₂ => ?_
  refine (lays_annotated hself).bind hc₁₂ fun value c₁₃ hi hvalue hc₁₃ => ?_
  refine (stays_atSign _).bind fun closes => ?_
  extract_lets jp
  refine moves_memberEnd.bind_unless hc₁₃ fun _ c₁₄ hc₁₄ => ?_
  refine (moves_expectSign _).bind hc₁₄ fun _ c₁₅ hc₁₅ => ?_
  exact .pure ⟨hi, (hdomain.append hrenamed).append hvalue, hc₁₅⟩

theorem lays_tupleElement : (tupleElement self).Lays SpanParts := by
  intro lo c hc
  rw [tupleElement]
  refine (moves_eatSign _).bind hc fun _ c₁ hc₁ => (stays_peeks _).bind fun named => ?_
  extract_lets jp
  have hjp : (jp ()).Lays SpanParts := by
    intro lo c hc
    refine hself.type.bind hc fun t c₁ hi ht hc₁ => ?_
    exact (moves_eatSign _).bind hc₁ fun _ c₂ hc₂ => .pure ⟨hi, ht, hc₂⟩
  split
  · refine moves_advance.bind hc₁ fun _ c₂ hc₂ => ?_
    refine (moves_eatSign _).bind hc₂ fun _ c₃ hc₃ => ?_
    exact (moves_expectSign _).bind hc₃ fun _ c₄ hc₄ => hjp hc₄
  · exact hjp hc₁

/-! ## Types -/

theorem lays_importType : (importType self).Lays SpanParts := by
  intro lo c hc
  rw [importType]
  refine (moves_expectWord _).bind hc fun _ c₁ hc₁ => ?_
  refine (moves_expectSign _).bind hc₁ fun _ c₂ hc₂ => ?_
  refine hself.type.bind hc₂ fun argument c₃ mid hargument hc₃ => ?_
  refine (moves_eatSign _).bind hc₃ fun comma c₄ hc₄ => ?_
  extract_lets jp
  have hjp : ∀ options c mid', SpanParts options mid mid' → c.At mid' →
      (jp options).Ensures c (Laid SpanParts lo) := by
    intro options c mid' hoptions hc
    refine (moves_expectSign _).bind hc fun _ c₁ hc₁ => ?_
    refine (moves_eatSign _).bind hc₁ fun dot c₂ hc₂ => ?_
    extract_lets jp
    refine moves_qualifiedName.bind_if (a := ()) hc₂ fun _ c₃ hc₃ => ?_
    refine (lays_sameLineTypeArguments hself).bind hc₃ fun args c₄ hi hargs hc₄ => ?_
    exact .pure ⟨hi, (hargument.append hoptions).append hargs, hc₄⟩
  split
  · refine (stays_atSign _).bind fun closes => ?_
    split
    · exact lays_nil.bind hc₄ hjp
    · refine (hself.assignment true).nested.bind hc₄ fun o c₅ hi ho hc₅ => ?_
      refine (moves_eatSign _).bind hc₅ fun _ c₆ hc₆ => ?_
      exact .pure_bind (hjp _ c₆ hi ho.single hc₆)
  · exact lays_nil.bind hc₄ hjp

omit hself in
/-- The rest of a template is read again as a token that starts at the brace before it. -/
theorem moves_retoken_template {c : Cursor} {lo fuel : Nat} {valid last : Bool} {rev : List Glyph}
    {cooked : Option String} {rest : List Char} (hkind : c.token.kind = .sign "\x7d")
    (h : readTemplate fuel valid rev c.rest = some (cooked, last, rest)) (hc : c.At lo) :
    (retoken (.template cooked last) rest).Ensures c fun _ c' => c'.At lo := by
  have hshorter := hc.fits.shorter (by rw [hkind, Kind.isSolid])
  have hsuffix := byteLength_le_of_suffix (suffix_of_readTemplate h)
  exact moves_retoken (Nat.lt_of_le_of_lt hsuffix hshorter) (by simp) hc

theorem lays_templateType : (templateType self).Lays SpanParts := by
  intro lo c hc
  refine .loop (I := Laid SpanParts lo) ⟨lo, .nil lo, hc⟩ fun parts c ⟨mid, hparts, hc⟩ => ?_
  refine stays_token.bind fun t => ?_
  split
  · exact moves_advance.bind hc fun _ c₁ hc₁ => .pure ⟨mid, hparts, hc₁⟩
  · refine moves_advance.bind hc fun _ c₁ hc₁ => ?_
    refine hself.type.bind hc₁ fun t c₂ hi ht hc₂ => ?_
    refine (ensures_atSign _).bind_stay fun closes hcloses => ?_
    extract_lets jp
    split
    · rename_i htrue
      refine .get_bind ?_
      split
      · rename_i cooked last rest hread
        refine (moves_retoken_template (hcloses htrue) hread hc₂).bind fun _ c₃ hc₃ => ?_
        exact .pure ⟨hi, hparts.append ht, hc₃⟩
      · exact .reject
    · exact .reject_bind
  · exact .reject

theorem lays_atomType : (atomType self).Lays SpanParts := by
  intro lo c hc
  rw [atomType]
  refine stays_token.bind fun t => ?_
  split
  iterate 3 exact moves_advance.bind hc fun _ c₁ hc₁ => .pure ⟨lo, .nil lo, hc₁⟩
  · exact lays_templateType hself hc
  · refine moves_advance.bind hc fun _ c₁ hc₁ => stays_token.bind fun t => ?_
    split
    iterate 2 exact moves_advance.bind hc₁ fun _ c₂ hc₂ => .pure ⟨lo, .nil lo, hc₂⟩
    exact .reject
  · refine (stays_peeks _).bind fun mapped => ?_
    split
    · exact lays_mappedType hself hc
    · exact lays_typeMembers hself hc
  · refine moves_advance.bind hc fun _ c₁ hc₁ => ?_
    refine (lays_commaList _ (lays_tupleElement hself)).bind hc₁ fun es c₂ hi hes hc₂ => ?_
    exact (moves_expectSign _).bind hc₂ fun _ c₃ hc₃ => .pure ⟨hi, hes.spanParts_flatten, hc₃⟩
  · refine moves_advance.bind hc fun _ c₁ hc₁ => ?_
    refine hself.type.bind hc₁ fun t c₂ hi ht hc₂ => ?_
    exact (moves_expectSign _).bind hc₂ fun _ c₃ hc₃ => .pure ⟨hi, ht, hc₃⟩
  · refine moves_advance.bind hc fun _ c₁ hc₁ => (stays_atWord _).bind fun imports => ?_
    split
    · exact lays_importType hself hc₁
    · exact lays_namedType hself hc₁
  · exact lays_importType hself hc
  · refine moves_advance.bind hc fun _ c₁ hc₁ => (stays_atWord _).bind fun is_ => ?_
    refine stays_onNewLine.bind fun breaks => ?_
    split
    · exact moves_advance.bind hc₁ fun _ c₂ hc₂ => hself.type hc₂
    · exact .pure ⟨lo, .nil lo, hc₁⟩
  · refine (stays_peeks _).bind fun states => ?_
    split
    · refine moves_advance.bind hc fun _ c₁ hc₁ => moves_advance.bind hc₁ fun _ c₂ hc₂ => ?_
      refine (moves_eatWord _).bind hc₂ fun is_ c₃ hc₃ => ?_
      split
      · exact hself.type hc₃
      · exact .pure ⟨lo, .nil lo, hc₃⟩
    · exact lays_namedType hself hc
  · split
    · exact moves_advance.bind hc fun _ c₁ hc₁ => .pure ⟨lo, .nil lo, hc₁⟩
    · exact lays_namedType hself hc
  · exact .reject

theorem lays_postfixType : (postfixType self).Lays SpanParts := by
  intro lo c hc
  rw [postfixType]
  refine (lays_atomType hself).bind hc fun base c₁ mid hbase hc₁ => ?_
  refine .loop (I := Laid SpanParts lo) ⟨mid, hbase, hc₁⟩ fun parts c ⟨mid, hparts, hc⟩ => ?_
  refine (stays_atSign _).bind fun bracket => stays_onNewLine.bind fun breaks => ?_
  split
  · refine moves_advance.bind hc fun _ c₂ hc₂ => (moves_eatSign _).bind hc₂ fun closes c₃ hc₃ => ?_
    split
    · exact .pure ⟨mid, hparts, hc₃⟩
    refine hself.type.bind hc₃ fun k c₄ hi hk hc₄ => ?_
    exact (moves_expectSign _).bind hc₄ fun _ c₅ hc₅ => .pure ⟨hi, hparts.append hk, hc₅⟩
  refine (stays_atSign _).bind fun bang => stays_onNewLine.bind fun breaks => ?_
  split
  · exact moves_advance.bind hc fun _ c₂ hc₂ => .pure ⟨mid, hparts, hc₂⟩
  · exact .pure ⟨mid, hparts, hc⟩

theorem lays_inferType : (inferType self).Lays SpanParts := by
  intro lo c hc
  rw [inferType]
  refine takes_bindingName.moves.bind hc fun _ c₁ hc₁ => ?_
  refine (Ensures.attempt (Q := Laid SpanParts lo) ?_).bind
    fun bound c₂ hbound => ?_
  · refine (moves_expectWord _).bind hc₁ fun _ c₂ hc₂ => ?_
    refine hself.type.inContext.bind hc₂ fun t c₃ hi ht hc₃ => stays_read.bind fun ctx => ?_
    refine (stays_atSign _).bind fun question => ?_
    extract_lets jp
    split
    · exact .reject_bind
    · exact .pure ⟨hi, ht, hc₃⟩
  · cases bound with
    | none =>
      obtain rfl : c₂ = c₁ := hbound
      exact .pure ⟨lo, .nil lo, hc₁⟩
    | some t => exact .pure hbound

theorem lays_operatorType : (operatorType self).Lays SpanParts := by
  intro lo c hc
  rw [operatorType]
  refine (moves_loop _ fun _ _ _ hc => stays_word.bind fun _ => moves_skip hc).bind hc
    fun _ c₁ hc₁ => ?_
  refine (moves_eatWord _).bind hc₁ fun infers c₂ hc₂ => ?_
  split
  · exact lays_inferType hself hc₂
  · exact (lays_postfixType hself).inContext hc₂

theorem lays_intersectionType : (intersectionType self).Lays SpanParts := by
  intro lo c hc
  rw [intersectionType]
  refine (moves_eatSign _).bind hc fun _ c₁ hc₁ => ?_
  refine (lays_sepBy1 _ (lays_operatorType hself)).bind hc₁ fun ts c₂ hi hts hc₂ => ?_
  exact .pure ⟨hi, hts.spanParts_flatten, hc₂⟩

theorem lays_unionType : (unionType self).Lays SpanParts := by
  intro lo c hc
  rw [unionType]
  refine (moves_eatSign _).bind hc fun _ c₁ hc₁ => ?_
  refine (lays_sepBy1 _ (lays_intersectionType hself)).bind hc₁ fun ts c₂ hi hts hc₂ => ?_
  exact .pure ⟨hi, hts.spanParts_flatten, hc₂⟩

theorem lays_type : (type self).Lays SpanParts := by
  intro lo c hc
  rw [type]
  refine (stays_atSign _).bind fun angle => ?_
  split
  · exact lays_functionType hself hc
  refine (stays_atSign _).bind fun paren => (stays_peeks _).bind fun starts => ?_
  split
  · exact lays_functionType hself hc
  refine (stays_peeks _).bind fun constructs => ?_
  split
  · refine (moves_eatWord _).bind hc fun _ c₁ hc₁ => moves_advance.bind hc₁ fun _ c₂ hc₂ => ?_
    exact lays_functionType hself hc₂
  refine (lays_unionType hself).bind hc fun t c₁ mid ht hc₁ => stays_read.bind fun ctx => ?_
  refine (stays_atWord _).bind fun extends_ => stays_onNewLine.bind fun breaks => ?_
  split
  · refine moves_advance.bind hc₁ fun _ c₂ hc₂ => ?_
    refine hself.type.inContext.bind hc₂ fun bound c₃ mid₁ hbound hc₃ => ?_
    refine (moves_expectSign _).bind hc₃ fun _ c₄ hc₄ => ?_
    refine hself.type.bind hc₄ fun yes c₅ mid₂ hyes hc₅ => ?_
    refine (moves_expectSign _).bind hc₅ fun _ c₆ hc₆ => ?_
    refine hself.type.bind hc₆ fun no c₇ hi hno hc₇ => ?_
    exact .pure ⟨hi, ((ht.append hbound).append hyes).append hno, hc₇⟩
  · exact .pure ⟨mid, ht, hc₁⟩

end Rules

end Grammar
end Source
end DependencyUse
