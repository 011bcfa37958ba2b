/-
# Functions and classes stand in the text

A function and a class leave the expressions in their heads and bodies, in source order.  Two
members of a class drop what was read before them: a static block and an index signature keep no
decorators.  What is kept of them starts later than the member does, and stands in the text all
the same (`SpanParts.after`).
-/

import DependencyUse.Proofs.Source.Reading.Types
import DependencyUse.Source.Grammar.Functions

namespace DependencyUse
namespace Source
namespace Grammar

open Reader

theorem moves_memberModifiers : memberModifiers.Moves := by
  refine moves_loop _ fun m lo c hc => ?_
  refine stays_read.bind fun ctx => ?_
  extract_lets typed
  refine stays_word.bind fun w => (stays_peeks _).bind fun fixed => ?_
  split
  · exact moves_keyword.bind hc fun _ c₁ hc₁ => .pure hc₁
  refine (stays_peeks _).bind fun async => ?_
  split
  · exact moves_keyword.bind hc fun _ c₁ hc₁ => .pure hc₁
  refine (stays_peeks _).bind fun accessor => ?_
  split
  · exact moves_keyword.bind hc fun _ c₁ hc₁ => .pure hc₁
  extract_lets typedWord
  refine (stays_peeks _).bind fun other => ?_
  split
  · exact moves_advance.bind hc fun _ c₁ hc₁ => .pure hc₁
  · exact .pure hc

section Rules

variable {self : Rules} (hself : self.Lay)
include hself

theorem lays_block : (block self).Lays SpanParts := by
  intro lo c hc
  rw [block]
  refine (moves_expectSign _).bind hc fun _ c₁ hc₁ => ?_
  refine (lays_many _ (hself.statement false)).bind hc₁ fun items c₂ hi hitems hc₂ => ?_
  refine (moves_expectSign _).bind hc₂ fun _ c₃ hc₃ => .pure ⟨hi, ?_, hc₃⟩
  exact (hitems.imp fun _ _ _ h => h.parts).spanParts_flatMap

theorem lays_functionTail (async generator : Bool) :
    (functionTail self async generator).Lays fun (tail : FunctionTail) => SpanParts tail.parts := by
  refine Lays.inContext fun lo c hc => ?_
  refine (lays_typeParameters hself).bind hc fun generics c₁ mid hgenerics hc₁ => ?_
  refine (lays_parameters hself).bind hc₁ fun ps c₂ mid' hps hc₂ => ?_
  refine (lays_annotatedResult hself).bind hc₂ fun result c₃ mid'' hresult hc₃ => ?_
  extract_lets head jp
  have hhead : SpanParts head lo mid'' := (hgenerics.append hps).append hresult
  refine (stays_atSign _).bind fun brace => ?_
  split
  · refine (lays_block hself).bind hc₃ fun body c₄ hi hbody hc₄ => ?_
    exact .pure ⟨hi, hhead.append hbody, hc₄⟩
  refine stays_read.bind fun ctx => ?_
  split
  · exact .pure ⟨mid'', hhead, hc₃⟩
  · exact .reject_bind

theorem lays_function (async declares : Bool) :
    (function self async declares).Lays
      fun (f : Option String × List Part × Bool) => SpanParts f.2.1 := by
  intro lo c hc
  rw [function]
  refine (moves_expectWord _).bind hc fun _ c₁ hc₁ => ?_
  refine (moves_eatSign _).bind hc₁ fun generator c₂ hc₂ => stays_atName.bind fun named => ?_
  extract_lets jp
  have hjp : ∀ name,
      (jp name).Lays fun (f : Option String × List Part × Bool) => SpanParts f.2.1 := by
    intro name lo c hc
    refine (lays_functionTail hself async generator).bind hc fun tail c₁ hi htail hc₁ => ?_
    exact .pure ⟨hi, htail, hc₁⟩
  split
  · split
    · exact takes_bindingName.moves.bind hc₂ fun name c₃ hc₃ => .pure_bind (hjp name hc₃)
    · exact takes_bindingName.moves.inContext.bind hc₂ fun name c₃ hc₃ => .pure_bind (hjp name hc₃)
  · exact .pure_bind (hjp none hc₂)

theorem lays_method (async generator : Bool) :
    (method self async generator).Lays fun (tail : FunctionTail) => SpanParts tail.parts := by
  intro lo c hc
  rw [method]
  refine (lays_functionTail hself async generator).bind hc fun tail c₁ hi htail hc₁ => ?_
  extract_lets jp
  exact moves_semicolon.bind_unless (a := ()) hc₁ fun _ c₂ hc₂ => .pure ⟨hi, htail, hc₂⟩

theorem lays_accessorMember (setter : Bool) : (accessorMember self setter).Lays SpanParts := by
  intro lo c hc
  rw [accessorMember]
  refine (lays_propertyKey hself).bind hc fun key c₁ mid hkey hc₁ => ?_
  refine (lays_method hself false false).bind hc₁ fun tail c₂ hi htail hc₂ => ?_
  refine (keepsToken_flagIf _).moves.bind hc₂ fun _ c₃ hc₃ => ?_
  exact .pure ⟨hi, SpanParts.append hkey htail, hc₃⟩

theorem lays_classMember : (classMember self).Lays SpanParts := by
  intro lo c hc
  rw [classMember]
  refine (moves_eatSign _).bind hc fun empty c₁ hc₁ => ?_
  split
  · exact .pure ⟨lo, .nil lo, hc₁⟩
  refine (lays_decorators hself).bind hc₁ fun decorated c₂ mid hdecorated hc₂ => ?_
  refine (stays_peeks _).bind fun blockDue => ?_
  split
  · refine moves_keyword.bind hc₂ fun _ c₃ hc₃ => ?_
    refine ((lays_block hself).inContext hc₃).mono fun body c₄ ⟨hi, hbody, hc₄⟩ => ?_
    exact ⟨hi, hbody.after hdecorated.le, hc₄⟩
  refine moves_memberModifiers.bind hc₂ fun m c₃ hc₃ => stays_read.bind fun ctx => ?_
  extract_lets typed jp
  -- What is no accessor: an index signature, a method or a field.
  have hjp : ∀ c : Cursor, c.At mid →
      (jp ()).Ensures c (Laid SpanParts lo) := by
    intro c hc
    refine (stays_peeks _).bind fun index => ?_
    split
    · refine (lays_indexSignature hself).bind hc fun s c₁ hi hs hc₁ => ?_
      refine moves_memberEnd.bind hc₁ fun _ c₂ hc₂ => ?_
      exact .pure ⟨hi, hs.types.after hdecorated.le, hc₂⟩
    refine (moves_eatSign _).bind hc fun generator c₁ hc₁ => ?_
    refine (lays_propertyKey hself).bind hc₁ fun key c₂ mid' hkey hc₂ => ?_
    have hhead := hdecorated.append hkey
    extract_lets jp
    have hjp : ∀ c : Cursor, c.At mid' →
        (jp ()).Ensures c (Laid SpanParts lo) := by
      intro c hc
      refine (stays_atSign _).bind fun paren => (stays_atSign _).bind fun angle => ?_
      split
      · refine (lays_method hself m.async generator).bind hc fun tail c₁ hi htail hc₁ => ?_
        exact .pure ⟨hi, hhead.append htail, hc₁⟩
      refine (lays_annotated hself).bind hc fun annotation c₁ mid'' hannotation hc₁ => ?_
      refine (lays_initialiser hself).inContext.bind hc₁ fun init c₂ hi hinit hc₂ => ?_
      refine moves_semicolon.bind hc₂ fun _ c₃ hc₃ => ?_
      exact .pure ⟨hi, (hhead.append hannotation).append hinit, hc₃⟩
    split
    · refine (moves_eatSign _).bind hc₂ fun question c₃ hc₃ => ?_
      split
      · exact hjp c₃ hc₃
      · refine stays_onNewLine.bind fun breaks => ?_
        exact (moves_eatSign _).bind_if (a := false) hc₃ fun _ c₄ hc₄ => hjp c₄ hc₄
    · exact hjp c₂ hc₂
  refine (stays_atWord _).bind fun get => (stays_atWord _).bind fun set => ?_
  split
  · refine (stays_peeks _).bind fun accessorDue => ?_
    split
    · refine (stays_atWord _).bind fun setter => moves_keyword.bind hc₃ fun _ c₄ hc₄ => ?_
      refine (lays_accessorMember hself setter).bind hc₄ fun parts c₅ hi hparts hc₅ => ?_
      exact .pure ⟨hi, hdecorated.append hparts, hc₅⟩
    · exact hjp c₃ hc₃
  · exact hjp c₃ hc₃

theorem lays_heritage : (heritage self).Lays SpanParts := by
  intro lo c hc
  rw [heritage]
  refine (moves_eatWord _).bind hc fun extends_ c₁ hc₁ => ?_
  extract_lets jp
  have hjp : ∀ base c mid, SpanParts base lo mid → c.At mid →
      (jp base).Ensures c (Laid SpanParts lo) := by
    intro base c mid hbase hc
    refine stays_read.bind fun ctx => (stays_atWord _).bind fun implements => ?_
    extract_lets jp
    split
    · refine moves_advance.bind hc fun _ c₁ hc₁ => ?_
      refine (lays_sepBy1 _ (lays_namedType hself)).bind hc₁ fun ts c₂ hi hts hc₂ => ?_
      exact .pure_bind (.pure ⟨hi, hbase.append hts.spanParts_flatten.types, hc₂⟩)
    · exact .pure_bind (.pure ⟨mid, by rwa [List.append_nil], hc⟩)
  split
  · refine hself.leftHand.bind hc₁ fun e c₂ mid he hc₂ => stays_read.bind fun ctx => ?_
    refine stays_atOpenAngle.bind fun angle => ?_
    extract_lets jp'
    refine (lays_typeArguments hself).bind_ite lays_nil hc₂ fun args c₃ hi hargs hc₃ => ?_
    exact .pure_bind (hjp _ c₃ hi (he.single.append hargs.types) hc₃)
  · exact lays_nil.bind hc₁ hjp

theorem lays_classTail :
    (classTail self).Lays fun (tail : Option String × List Part) => SpanParts tail.2 := by
  intro lo c hc
  rw [classTail]
  refine (moves_expectWord _).bind hc fun _ c₁ hc₁ => ?_
  refine stays_atName.bind fun named => (stays_atWord _).bind fun implements => ?_
  extract_lets named' jp
  have hjp : ∀ name, (jp name).Lays fun (tail : Option String × List Part) => SpanParts tail.2 := by
    intro name lo c hc
    refine (lays_typeParameters hself).bind hc fun generics c₁ mid hgenerics hc₁ => ?_
    refine (lays_heritage hself).bind hc₁ fun base c₂ mid' hbase hc₂ => ?_
    refine (moves_expectSign _).bind hc₂ fun _ c₃ hc₃ => ?_
    refine (lays_many _ (lays_classMember hself)).bind hc₃ fun members c₄ hi hmembers hc₄ => ?_
    refine (moves_expectSign _).bind hc₄ fun _ c₅ hc₅ => ?_
    exact .pure ⟨hi, (hgenerics.append hbase).append hmembers.spanParts_flatten, hc₅⟩
  split
  · exact takes_bindingName.moves.bind hc₁ fun name c₂ hc₂ => .pure_bind (hjp name hc₂)
  · exact .pure_bind (hjp none hc₁)

end Rules

end Grammar
end Source
end DependencyUse
