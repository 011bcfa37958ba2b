/-
# Markup elements stand in the text

Between two tokens the readers of an element pass a place on, and what counts is its offset:
it grows, and a jump to it makes the grammar read from there on.

| read | stands between |
| --- | --- |
| a tag name, attributes, the content | the offsets of the places before and after it |
| an element | its `<` and the `>` that closes it, which is the due token then |
-/

import DependencyUse.Proofs.Source.Reading.Types
import DependencyUse.Source.Grammar.Markup
import Mathlib.Data.List.TakeWhile

namespace DependencyUse
namespace Source
namespace Reader

section Gives

variable {α β : Type} {p : Reader α} {f : α → Reader β} {P : α → Prop} {R : β → Cursor → Prop}

/-- Whatever is read satisfies `P`, from any cursor on. -/
def Gives (p : Reader α) (P : α → Prop) : Prop := ∀ c, p.Ensures c fun a _ => P a

theorem Gives.bind {c : Cursor} (hp : p.Gives P) (hf : ∀ a, P a → ∀ c', (f a).Ensures c' R) :
    (p >>= f).Ensures c R :=
  (hp c).bind fun a c' ha => hf a ha c'

end Gives

end Reader

namespace Grammar

open Reader
open Text (isNameStart isNamePart)

/-! ## Places -/

theorem Place.le_skip (p : Place) (n : Nat) : p.offset ≤ (p.skip n).offset := Nat.le_add_right _ _

theorem Place.lt_skip {p : Place} {n : Nat} (hp : p.text ≠ []) (hn : 0 < n) :
    p.offset < (p.skip n).offset := by
  obtain ⟨x, rest, htext⟩ := List.exists_cons_of_ne_nil hp
  obtain ⟨n, rfl⟩ := Nat.exists_eq_succ_of_ne_zero hn.ne'
  have hlt := byteLength_lt_cons (List.nil_suffix (l := rest.take n)) x
  rw [Place.skip, htext, List.take_succ_cons]
  exact Nat.lt_add_of_pos_right (Nat.zero_lt_of_lt hlt)

theorem gives_pastGap (p : Place) : p.pastGap.Gives fun q => p.offset ≤ q.offset := by
  intro c
  rw [Place.pastGap]
  split
  · exact .pure (le_offset_skipGap ..)
  · exact .reject

theorem gives_expect (p : Place) (ch : Char) :
    (p.expect ch).Gives fun q =>
      p.offset < q.offset ∧ byteLength q.text < byteLength p.text := by
  intro c
  rw [Place.expect]
  split
  · rename_i hhead
    have hne : p.text ≠ [] := by
      rintro htext
      rw [htext] at hhead
      cases hhead
    refine .pure ⟨Place.lt_skip hne Nat.one_pos, ?_⟩
    obtain ⟨x, rest, htext⟩ := List.exists_cons_of_ne_nil hne
    rw [Place.skip, htext]
    exact byteLength_lt_cons List.suffix_rfl x
  · exact .reject

/-- A name in markup has no dot, and there is something of it. -/
theorem gives_markupName (p : Place) :
    (markupName p).Gives fun r => '.' ∉ r.1.toList ∧ p.offset < r.2.offset := by
  intro c
  rw [markupName]
  split
  · rename_i x rest htext
    extract_lets name jp
    split
    · rename_i hstart
      refine .pure ⟨?_, Place.lt_skip (by simp [htext]) ?_⟩
      · intro hdot
        have hpart := List.mem_takeWhile_imp (String.toList_ofList ▸ hdot)
        exact absurd hpart (by decide)
      · have hx : isNamePart x = true := by simp [isNamePart, hstart]
        simp [name, htext, hx]
    · exact .reject_bind
  · exact .reject

theorem ensures_placeAfter {c : Cursor} {lo : Nat} (hc : c.At lo) :
    placeAfter.Ensures c fun q _ => lo ≤ q.offset := by
  rw [placeAfter]
  refine .get_bind ?_
  refine .token_bind ?_
  exact .pure (hc.le.trans hc.fits.start_le)

/-! ## Tags -/

theorem spanParts_name {name : String} {lo hi : Nat} (hname : '.' ∉ name.toList) (h : lo < hi) :
    SpanParts [.expr (.name name)] lo hi := by
  refine Expr.Spans.single ?_
  simp only [Expr.Spans]
  exact ⟨hname, h⟩

theorem spanParts_tagReference {name : String} {lo hi : Nat} (hname : '.' ∉ name.toList)
    (h : lo < hi) : SpanParts (tagReference name) lo hi := by
  have hnil : SpanParts [] lo hi := (SpanParts.nil lo).upTo h.le
  unfold tagReference
  split
  · split
    · exact hnil
    · exact spanParts_name hname h
  · exact hnil

theorem gives_tagName (p : Place) :
    (tagName p).Gives fun r => SpanParts r.1.parts p.offset r.2.offset := by
  intro c
  rw [tagName]
  refine (gives_markupName p).bind fun (root, q) ⟨hroot, hq⟩ c => ?_
  refine (gives_pastGap q).bind fun q' hq' c => ?_
  have hroot' : p.offset < q'.offset := Nat.lt_of_lt_of_le hq hq'
  dsimp only
  split
  · refine (gives_pastGap _).bind fun q₁ hq₁ c => ?_
    refine (gives_markupName _).bind fun (name, q₂) ⟨_, hq₂⟩ c => .pure ?_
    simp only [SpanParts]
    have := q'.le_skip 1
    simp only at hq₂ ⊢
    omega
  · refine (keepsToken_flagIf _ _).bind fun _ c _ => ?_
    have hparts : SpanParts (if root == "this" then [.expr .this] else [.expr (.name root)])
        p.offset q'.offset := by
      split
      · exact Expr.Spans.single (by simpa only [Expr.Spans] using hroot')
      · exact spanParts_name hroot hroot'
    refine .loop (I := fun state _ => q'.offset ≤ state.2.offset) q'.offset.le_refl
      fun (text, q) c hq => ?_
    dsimp only at hq ⊢
    split
    · refine (gives_pastGap _).bind fun q₁ hq₁ c => ?_
      refine (gives_markupName _).bind fun (name, q₂) ⟨_, hq₂⟩ c => ?_
      refine (keepsToken_flagIf _ _).bind fun _ c _ => (gives_pastGap _).bind fun q₃ hq₃ c => ?_
      exact .pure (hq.trans ((q.le_skip 1).trans (hq₁.trans (hq₂.le.trans hq₃))))
    · exact .pure (hparts.upTo hq)
  · exact .pure (spanParts_tagReference hroot hq)

/-! ## Elements -/

section Rules

variable {self : Rules} (hself : self.Lay)
include hself

theorem gives_bracedExpression (p : Place) :
    (bracedExpression self p).Gives fun r => SpanParts r.1 p.offset r.2.offset := by
  intro c
  rw [bracedExpression]
  refine (ensures_jump p.offset.le_refl).bind fun _ c₁ hc₁ => ?_
  refine (hself.assignment true).nested.bind hc₁ fun e c₂ hi he hc₂ => ?_
  refine (stays_atSign _).bind fun closes => ?_
  extract_lets jp
  split
  · refine (ensures_placeAfter hc₂).bind fun q c₃ hq => ?_
    exact .pure (he.single.upTo hq)
  · exact .reject_bind

theorem gives_spreadExpression (p : Place) :
    (spreadExpression self p).Gives fun r => SpanParts r.1 p.offset r.2.offset := by
  intro c
  rw [spreadExpression]
  refine (gives_expect _ _).bind fun p₁ h₁ c => (gives_expect _ _).bind fun p₂ h₂ c => ?_
  refine (gives_expect _ _).bind fun p₃ h₃ c => ?_
  refine (gives_bracedExpression hself p₃ c).mono fun r _ hr => ?_
  exact hr.after (h₁.1.le.trans (h₂.1.le.trans h₃.1.le))

theorem gives_nestedMarkup (p : Place) :
    (nestedMarkup self p).Gives fun r => SpanParts r.1 p.offset r.2.offset := by
  intro c
  rw [nestedMarkup]
  refine (ensures_jump p.offset.le_refl).bind fun _ c₁ hc₁ => ?_
  refine hself.markup.bind hc₁ fun e c₂ hi he hc₂ => ?_
  exact (ensures_placeAfter hc₂).bind fun q c₃ hq => .pure (he.single.upTo hq)

theorem gives_attributeValue (p : Place) :
    (attributeValue self p).Gives fun r => SpanParts r.1 p.offset r.2.offset := by
  intro c
  rw [attributeValue]
  split
  · refine (gives_bracedExpression hself _ c).mono fun r _ hr => hr.after (p.le_skip 1)
  · exact gives_nestedMarkup hself p c
  · extract_lets body q jp
    split
    · refine (gives_expect q _).bind fun q' hq' c => .pure ?_
      exact (SpanParts.nil p.offset).upTo ((p.le_skip _).trans hq'.1.le)
    · exact .reject_bind
  · exact .reject

theorem gives_attributes (p : Place) :
    (attributes self p).Gives fun r => SpanParts r.1 p.offset r.2.offset := by
  intro c
  refine .loop (I := fun state _ => SpanParts state.1 p.offset state.2.offset)
    (SpanParts.nil p.offset) fun (parts, q) c hparts => ?_
  refine (gives_pastGap _).bind fun q₁ hq₁ c => ?_
  have hparts := hparts.upTo hq₁
  split
  · exact .pure hparts
  · exact .pure hparts
  · refine (gives_pastGap _).bind fun q₂ hq₂ c => ?_
    refine (gives_spreadExpression hself q₂).bind fun (e, q₃) he c => .pure ?_
    exact hparts.append (he.after ((q₁.le_skip 1).trans hq₂))
  · refine (gives_markupName _).bind fun (name, q₂) ⟨_, hq₂⟩ c => ?_
    refine (gives_pastGap _).bind fun q₃ hq₃ c => ?_
    extract_lets jp
    -- The name and its namespace are behind.
    have hjp : ∀ q : Place, q₁.offset ≤ q.offset → ∀ c : Cursor, (jp q).Ensures c fun r _ =>
        r.elim (fun x => SpanParts x.1 p.offset x.2.offset)
          fun x => SpanParts x.1 p.offset x.2.offset := by
      intro q hq c
      have hparts := hparts.upTo hq
      simp only [jp]
      split
      · refine (gives_pastGap _).bind fun q₂ hq₂ c => ?_
        refine (gives_attributeValue hself q₂).bind fun (value, q₃) hvalue c => .pure ?_
        exact hparts.append (hvalue.after ((q.le_skip 1).trans hq₂))
      · exact .pure hparts
    have hq₃ : q₁.offset ≤ q₃.offset := hq₂.le.trans hq₃
    split
    · refine (gives_pastGap _).bind fun q₄ hq₄ c => ?_
      refine (gives_markupName _).bind fun (name, q₅) ⟨_, hq₅⟩ c => ?_
      refine (gives_pastGap _).bind fun q₆ hq₆ c => hjp q₆ ?_ c
      exact hq₃.trans ((q₃.le_skip 1).trans (hq₄.trans (hq₅.le.trans hq₆)))
    · exact .pure_bind (hjp q₃ hq₃ c)

theorem gives_children (p : Place) :
    (children self p).Gives fun r => SpanParts r.1 p.offset r.2.offset := by
  intro c
  refine .loop (I := fun state _ => SpanParts state.1 p.offset state.2.offset)
    (SpanParts.nil p.offset) fun (parts, q) c hparts => ?_
  dsimp -zeta only
  extract_lets text q₀
  have hparts : SpanParts parts p.offset q₀.offset := hparts.upTo (q.le_skip _)
  split
  · refine (gives_pastGap _).bind fun q₁ hq₁ c => ?_
    have hparts := hparts.upTo ((Place.le_skip _ 1).trans hq₁)
    split
    · exact .pure (hparts.upTo (q₁.le_skip 1))
    · refine (gives_spreadExpression hself q₁).bind fun (e, q₂) he c => ?_
      exact .pure (hparts.append he)
    · refine (gives_bracedExpression hself q₁).bind fun (e, q₂) he c => ?_
      exact .pure (hparts.append he)
  · refine (gives_pastGap _).bind fun q₁ hq₁ c => ?_
    split
    · exact .pure (hparts.upTo ((Place.le_skip _ 1).trans (hq₁.trans (q₁.le_skip 1))))
    · refine (gives_nestedMarkup hself _).bind fun (e, q₂) he c => ?_
      exact .pure (hparts.append he)
  · exact .reject

omit hself in
/-- The `>` at `p` is due then. -/
theorem ensures_endOn {c : Cursor} (p : Place) :
    (endOn p).Ensures c fun _ c' => c'.At p.offset := by
  rw [endOn]
  refine (gives_expect p _).bind fun q ⟨hoffset, htext⟩ c => ?_
  refine ensures_modify.mono fun _ c' h => ?_
  subst h
  exact {
    fits.start_le := hoffset.le
    fits.start_lt := fun _ => hoffset
    fits.shorter := fun _ => htext
    fits.undotted := nofun
    le := p.offset.le_refl }

theorem gives_tagTypes (p : Place) :
    (tagTypes self p).Gives fun r => SpanParts r.1 p.offset r.2.offset := by
  intro c
  rw [tagTypes]
  refine (gives_pastGap p).bind fun q hq c => stays_read.bind fun ctx => ?_
  split
  · refine (ensures_jump hq).bind fun _ c₁ hc₁ => ?_
    refine (lays_typeArguments hself).bind hc₁ fun args c₂ hi hargs hc₂ => ?_
    refine .get_bind ?_
    refine .token_bind ?_
    exact .pure (hargs.types.upTo hc₂.le)
  · exact .pure (.nil p.offset)

/-- **An element** stands in the text from its `<` on. -/
theorem lays_markup : (markup self).Lays Expr.Spans := by
  intro lo c hc
  rw [markup]
  refine stays_read.bind fun ctx => .get_bind ?_
  extract_lets jp
  split
  · refine .get_bind ?_
    refine .token_bind ?_
    refine (gives_pastGap _).bind fun p hp c => ?_
    have hlo : lo ≤ p.offset := hc.le.trans ((Nat.le_succ _).trans hp)
    split
    · refine (gives_children hself _).bind fun (parts, p₁) hparts c => ?_
      refine (gives_pastGap _).bind fun p₂ hp₂ c => (ensures_endOn p₂).bind fun _ c hc => ?_
      refine .pure ⟨_, ?_, hc⟩
      simp only [Expr.Spans]
      exact (hparts.after (hlo.trans (p.le_skip 1))).upTo hp₂
    refine (gives_tagName p).bind fun (tag, p₁) htag c => ?_
    refine (gives_tagTypes hself p₁).bind fun (types, p₂) htypes c => ?_
    refine (gives_attributes hself p₂).bind fun (given, p₃) hgiven c => ?_
    dsimp -zeta only
    extract_lets head
    have hhead : SpanParts head lo p₃.offset :=
      ((htag.after hlo).append htypes).append hgiven
    split
    · refine (gives_pastGap _).bind fun p₄ hp₄ c => (ensures_endOn p₄).bind fun _ c hc => ?_
      refine .pure ⟨_, ?_, hc⟩
      simp only [Expr.Spans]
      exact hhead.upTo ((p₃.le_skip 1).trans hp₄)
    · refine (gives_expect _ _).bind fun p₄ hp₄ c => ?_
      refine (gives_children hself p₄).bind fun (parts, p₅) hparts c => ?_
      refine (gives_pastGap _).bind fun p₆ hp₆ c => ?_
      refine (gives_tagName p₆).bind fun (closing, p₇) hclosing c => ?_
      extract_lets jp
      split
      · refine (gives_pastGap _).bind fun p₈ hp₈ c => (ensures_endOn p₈).bind fun _ c hc => ?_
        refine .pure ⟨_, ?_, hc⟩
        simp only [Expr.Spans]
        have hend : p₅.offset ≤ p₈.offset := hp₆.trans (hclosing.le.trans hp₈)
        exact hhead.append ((hparts.after hp₄.1.le).upTo hend)
      · exact .reject_bind
  · exact .reject_bind

end Rules

end Grammar
end Source
end DependencyUse
