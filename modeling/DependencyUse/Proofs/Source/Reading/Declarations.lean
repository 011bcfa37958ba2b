/-
# Declarations stand in the text

A declarator carries the offset at which its pattern starts; its pattern, type and value stand
from there on.
-/

import DependencyUse.Proofs.Source.Reading.Expressions
import DependencyUse.Source.Grammar.Declarations

namespace DependencyUse
namespace Source
namespace Grammar

open Reader

/-- The parts of the declaration stand between two offsets. -/
def Declared.Spans (d : Declared) : Nat → Nat → Prop := SpanParts d.parts

/-- The parts of the declarator stand between two offsets. -/
def Variable.Spans (v : Variable) : Nat → Nat → Prop := SpanParts v.parts

theorem moves_variableWord : variableWord.Moves := by
  intro lo c hc
  rw [variableWord]
  refine stays_word.bind fun w => moves_keyword.bind hc fun _ c₁ hc₁ => ?_
  split
  · exact (moves_expectWord _).bind hc₁ fun _ c₂ hc₂ => .pure hc₂
  · exact .pure hc₁

theorem moves_checkValues (w : String) (vs : List Variable) : (checkValues w vs).Moves :=
  fun _ _ hc => stays_read.bind fun _ => (keepsToken_flagIf _).moves hc

section Rules

variable {self : Rules} (hself : self.Lay)
include hself

/-! ## Variables -/

theorem lays_declaredVariable : (declaredVariable self).Lays Variable.Spans := by
  intro lo c hc
  rw [declaredVariable]
  refine .token_bind ?_
  extract_lets start
  refine hself.pattern.bind hc.start fun b c₁ mid hb hc₁ => ?_
  extract_lets isPattern jp marked
  have hjp : ∀ c : Cursor, c.At mid →
      (jp ()).Ensures c (Laid Variable.Spans lo) := by
    intro c' hc'
    refine (lays_annotated hself).bind hc' fun annotation c₁ mid' hannotation hc₁ => ?_
    have hparts : SpanParts (b.parts ++ annotation) start mid' := SpanParts.append hb hannotation
    extract_lets parts
    refine (moves_eatSign _).bind hc₁ fun equals c₂ hc₂ => ?_
    split
    · refine (hself.assignment true).bind hc₂ fun init c₃ hi hinit hc₃ => .pure ⟨hi, ?_, hc₃⟩
      refine Part.Spans.single ?_
      simp only [Part.Spans]
      exact ⟨hc.le, mid', hparts, hinit⟩
    · exact .pure ⟨mid', hparts.after hc.le, hc₂⟩
  refine stays_read.bind fun ctx => ?_
  split
  · refine (stays_atSign _).bind fun bang => stays_onNewLine.bind fun breaks => ?_
    refine moves_advance.bind_if (a := ()) hc₁ fun _ c₂ hc₂ => ?_
    exact (moves_eatSign _).bind hc₂ fun _ c₃ hc₃ => hjp c₃ hc₃
  · exact hjp c₁ hc₁

theorem lays_variableStatement : (variableStatement self).Lays Declared.Spans := by
  intro lo c hc
  rw [variableStatement]
  refine moves_variableWord.bind hc fun w c₁ hc₁ => ?_
  refine (lays_sepBy1 _ (lays_declaredVariable hself)).inContext.bind hc₁ fun vs c₂ hi hvs hc₂ => ?_
  refine (moves_checkValues w vs).bind hc₂ fun _ c₃ hc₃ => ?_
  exact moves_semicolon.bind hc₃ fun _ c₄ hc₄ => .pure ⟨hi, hvs.spanParts_flatMap, hc₄⟩

/-! ## Functions, classes, enums -/

theorem lays_functionDeclaration (single declared : Bool) :
    (functionDeclaration self single declared).Lays Declared.Spans := by
  intro lo c hc
  rw [functionDeclaration]
  refine (moves_eatWord _).bind hc fun async c₁ hc₁ => (stays_peeks _).bind fun generator => ?_
  refine (keepsToken_flagIf _).moves.bind hc₁ fun _ c₂ hc₂ => ?_
  refine (lays_function hself async true).bind hc₂ fun (name, parts, hasBody) c₃ hi hparts hc₃ => ?_
  refine (keepsToken_flagIf _).moves.bind hc₃ fun _ c₄ hc₄ => ?_
  extract_lets jp
  exact moves_semicolon.bind_unless (a := ()) hc₄ fun _ c₅ hc₅ => .pure ⟨hi, hparts, hc₅⟩

theorem lays_classDeclaration : (classDeclaration self).Lays Declared.Spans := by
  intro lo c hc
  rw [classDeclaration]
  refine (lays_classTail hself).bind hc fun (name, parts) c₁ hi hparts hc₁ => ?_
  exact (keepsToken_flagIf _).moves.bind hc₁ fun _ c₂ hc₂ => .pure ⟨hi, hparts, hc₂⟩

theorem lays_enumMember : (enumMember self).Lays SpanParts := by
  intro lo c hc
  rw [enumMember]
  refine (lays_propertyKey hself).bind hc fun key c₁ mid hkey hc₁ => ?_
  extract_lets jp
  split
  · exact .reject_bind
  · refine (lays_initialiser hself).bind hc₁ fun init c₂ hi hinit hc₂ => ?_
    exact .pure ⟨hi, SpanParts.append hkey hinit, hc₂⟩

theorem lays_enumDeclaration : (enumDeclaration self).Lays Declared.Spans := by
  intro lo c hc
  rw [enumDeclaration]
  refine (moves_expectWord _).bind hc fun _ c₁ hc₁ => ?_
  refine takes_bindingName.moves.bind hc₁ fun name c₂ hc₂ => ?_
  refine (moves_expectSign _).bind hc₂ fun _ c₃ hc₃ => ?_
  refine (lays_commaList _ (lays_enumMember hself)).bind hc₃ fun members c₄ hi hmembers hc₄ => ?_
  exact (moves_expectSign _).bind hc₄ fun _ c₅ hc₅ => .pure ⟨hi, hmembers.spanParts_flatten, hc₅⟩

/-! ## Types and namespaces -/

theorem lays_interfaceDeclaration : (interfaceDeclaration self).Lays Declared.Spans := by
  intro lo c hc
  rw [interfaceDeclaration]
  refine (moves_expectWord _).bind hc fun _ c₁ hc₁ => ?_
  refine takes_bindingName.moves.bind hc₁ fun name c₂ hc₂ => ?_
  refine (lays_typeParameters hself).bind hc₂ fun generics c₃ mid hgenerics hc₃ => ?_
  refine (moves_eatWord _).bind hc₃ fun extends_ c₄ hc₄ => ?_
  extract_lets jp
  have hnone : (pure [] : Reader (List (List Part))).Lays (Chained SpanParts) :=
    fun lo _ hc => .pure ⟨lo, rfl, hc⟩
  refine (lays_sepBy1 _ (lays_namedType hself)).bind_ite hnone hc₄
    fun bases c₅ mid' hbases hc₅ => ?_
  refine (lays_typeMembers hself).bind hc₅ fun members c₆ hi hmembers hc₆ => ?_
  have hparts := (hgenerics.append hbases.spanParts_flatten).append hmembers
  exact .pure ⟨hi, hparts.types, hc₆⟩

theorem lays_typeAlias : (typeAlias self).Lays Declared.Spans := by
  intro lo c hc
  rw [typeAlias]
  refine (moves_expectWord _).bind hc fun _ c₁ hc₁ => ?_
  refine takes_bindingName.moves.bind hc₁ fun name c₂ hc₂ => ?_
  refine (lays_typeParameters hself).bind hc₂ fun generics c₃ mid hgenerics hc₃ => ?_
  refine (moves_expectSign _).bind hc₃ fun _ c₄ hc₄ => ?_
  refine hself.type.bind hc₄ fun t c₅ hi ht hc₅ => ?_
  exact moves_semicolon.bind hc₅ fun _ c₆ hc₆ => .pure ⟨hi, (hgenerics.append ht).types, hc₆⟩

theorem lays_namespaceDeclaration : (namespaceDeclaration self).Lays Declared.Spans := by
  intro lo c hc
  rw [namespaceDeclaration]
  refine stays_word.bind fun w => moves_advance.bind hc fun _ c₁ hc₁ => ?_
  split
  · exact (lays_block hself).bind hc₁ fun body c₂ hi hbody hc₂ => .pure ⟨hi, hbody, hc₂⟩
  refine stays_token.bind fun t => ?_
  split
  · refine moves_advance.bind hc₁ fun _ c₂ hc₂ => (stays_atSign _).bind fun brace => ?_
    split
    · exact (lays_block hself).bind hc₂ fun body c₃ hi hbody hc₃ => .pure ⟨hi, hbody, hc₃⟩
    · exact moves_semicolon.bind hc₂ fun _ c₃ hc₃ => .pure ⟨lo, SpanParts.nil lo, hc₃⟩
  · refine (moves_sepBy1 _ takes_bindingName.moves).bind hc₁ fun names c₂ hc₂ => ?_
    exact (lays_block hself).bind hc₂ fun body c₃ hi hbody hc₃ => .pure ⟨hi, hbody, hc₃⟩

theorem lays_typedDeclaration : (typedDeclaration self).Lays Declared.Spans := by
  intro lo c hc
  rw [typedDeclaration]
  refine (moves_loop _ fun declared lo c hc => ?_).bind hc fun declared c₁ hc₁ => .inContext ?_
  · refine stays_word.bind fun w => (stays_peeks _).bind fun follows => ?_
    split
    · exact moves_advance.bind hc fun _ c₁ hc₁ => .pure hc₁
    · exact .pure hc
  refine stays_word.bind fun w => ?_
  split
  · exact lays_interfaceDeclaration hself hc₁
  · exact lays_typeAlias hself hc₁
  · exact lays_enumDeclaration hself hc₁
  · exact lays_classDeclaration hself hc₁
  iterate 2 exact lays_functionDeclaration hself false declared hc₁
  · refine (stays_peeks _).bind fun enumDue => ?_
    split
    · exact moves_advance.bind hc₁ fun _ c₂ hc₂ => lays_enumDeclaration hself hc₂
    · exact lays_variableStatement hself hc₁
  iterate 2 exact lays_variableStatement hself hc₁
  iterate 3 exact lays_namespaceDeclaration hself hc₁
  exact .reject

end Rules

end Grammar
end Source
end DependencyUse
