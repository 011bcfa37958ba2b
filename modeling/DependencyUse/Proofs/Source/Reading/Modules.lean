/-
# Import and export declarations stand in the text

A declaration carries the offset of its first word, which takes a byte at least.
-/

import DependencyUse.Proofs.Source.Reading.Declarations
import DependencyUse.Source.Grammar.Modules

namespace DependencyUse
namespace Source
namespace Grammar

open Reader

variable {c : Cursor} {lo mid : Nat}

/-! ## Names in braces -/

/-- A name that is no string has no dot. -/
def ModuleName.IsUndotted (n : ModuleName) : Prop := n.quoted = false → '.' ∉ n.text.toList

/-- The entry takes a byte at least, and its name on the left has no dot. -/
def Specifier.Spans (s : Specifier) (lo hi : Nat) : Prop := s.left.IsUndotted ∧ lo < hi

theorem stays_atModuleName : atModuleName.Stays := by
  intro c
  rw [atModuleName]
  refine stays_token.bind fun t => ?_
  split <;> exact .pure rfl

theorem ensures_moduleName (hc : c.At lo) :
    moduleName.Ensures c fun n c' => n.IsUndotted ∧ c'.At (lo + 1) := by
  rw [moduleName]
  refine .token_bind ?_
  split
  · rename_i w escaped hkind
    refine (ensures_advance_solid hc (by rw [hkind, Kind.isSolid])).bind fun _ c₁ hc₁ => ?_
    exact .pure ⟨fun _ => hc.fits.undotted w escaped hkind, hc₁⟩
  · rename_i s hkind
    refine (ensures_advance_solid hc (by rw [hkind, Kind.isSolid])).bind fun _ c₁ hc₁ => ?_
    exact .pure ⟨by simp [ModuleName.IsUndotted], hc₁⟩
  · exact .reject

theorem moves_moduleName : moduleName.Moves :=
  fun _ _ hc => (ensures_moduleName hc).mono fun _ _ h => h.2.mono (Nat.le_succ _)

theorem ensures_typeSpecifier (hc : c.At lo) :
    typeSpecifier.Ensures c fun s c' => s.left.IsUndotted ∧ c'.At lo := by
  have htype : ModuleName.IsUndotted ⟨"type", false⟩ := fun _ => by decide
  have has : ModuleName.IsUndotted ⟨"as", false⟩ := fun _ => by decide
  rw [typeSpecifier]
  refine (stays_atWord _).bind fun first => ?_
  split
  · refine moves_advance.bind hc fun _ c₁ hc₁ => (stays_atWord _).bind fun second => ?_
    split
    · refine moves_advance.bind hc₁ fun _ c₂ hc₂ => stays_atModuleName.bind fun named => ?_
      split
      · exact moves_moduleName.bind hc₂ fun n c₃ hc₃ => .pure ⟨has, hc₃⟩
      · exact .pure ⟨htype, hc₂⟩
    refine stays_atModuleName.bind fun named => ?_
    split
    · exact moves_moduleName.bind hc₁ fun n c₂ hc₂ => .pure ⟨htype, hc₂⟩
    · exact .pure ⟨has, hc₁⟩
  refine stays_atModuleName.bind fun named => ?_
  split
  · refine (ensures_moduleName hc).bind fun left c₁ ⟨hleft, hc₁⟩ => ?_
    have hc₁ := hc₁.mono lo.le_succ
    refine (moves_eatWord _).bind hc₁ fun renames c₂ hc₂ => ?_
    split
    · exact moves_moduleName.bind hc₂ fun n c₃ hc₃ => .pure ⟨hleft, hc₃⟩
    · exact .pure ⟨hleft, hc₂⟩
  · exact .pure ⟨htype, hc⟩

theorem lays_specifier (typeOnly : Bool) : (specifier typeOnly).Lays Specifier.Spans := by
  intro lo c hc
  rw [specifier]
  refine stays_read.bind fun ctx => ?_
  extract_lets typed jp
  have hjp : ∀ (s : Specifier) (c : Cursor), s.left.IsUndotted → c.At (lo + 1) →
      (jp s).Ensures c (Laid Specifier.Spans lo) := fun s c hs hc =>
    (keepsToken_flagIf _).moves.bind hc fun _ c₁ hc₁ => .pure ⟨lo + 1, ⟨hs, lo.lt_succ_self⟩, hc₁⟩
  refine (ensures_atWord (by decide)).bind_stay fun marked hmarked => ?_
  split
  · rename_i htrue
    obtain ⟨escaped, hkind⟩ := hmarked htrue
    refine (ensures_advance_solid hc (by rw [hkind, Kind.isSolid])).bind fun _ c₁ hc₁ => ?_
    exact (ensures_typeSpecifier hc₁).bind fun s c₂ h => hjp s c₂ h.1 h.2
  · refine (ensures_moduleName hc).bind fun left c₁ h => ?_
    obtain ⟨hleft, hc₁⟩ := h
    refine (moves_eatWord _).bind hc₁ fun renames c₂ hc₂ => ?_
    split
    · exact moves_moduleName.bind hc₂ fun n c₃ hc₃ => .pure_bind (hjp _ c₃ hleft hc₃)
    · exact .pure_bind (hjp _ c₂ hleft hc₂)

/-- The local names of entries that stand one after the other do so too. -/
theorem spanParts_localNames {names : List Specifier} {hi : Nat}
    (h : Chained Specifier.Spans names lo hi) :
    SpanParts ((names.filter (·.isLocal)).map fun s => .expr (.name s.left.text)) lo hi := by
  induction names generalizing lo with
  | nil => exact h ▸ SpanParts.nil lo
  | cons s names ih =>
    obtain ⟨m, ⟨hleft, hlt⟩, hrest⟩ := h
    rw [List.filter_cons]
    split
    · rename_i hlocal
      have hquoted : s.left.quoted = false := by
        simp only [Specifier.isLocal, Bool.and_eq_true, Bool.not_eq_true'] at hlocal
        exact hlocal.1.1
      exact (spanParts_name (hleft hquoted) hlt).append (ih hrest)
    · exact (ih hrest).after hlt.le

theorem moves_moduleText : moduleText.Moves := by
  intro lo c hc
  rw [moduleText]
  refine stays_token.bind fun t => ?_
  split
  · exact moves_advance.bind hc fun _ c₁ hc₁ => .pure hc₁
  · exact .reject

theorem moves_importAttributes : importAttributes.Moves := by
  intro lo c hc
  rw [importAttributes]
  refine (stays_atWord _).bind fun with_ => (stays_atWord _).bind fun assert => ?_
  refine stays_onNewLine.bind fun breaks => ?_
  extract_lets due
  split
  · refine moves_advance.bind hc fun _ c₁ hc₁ => (moves_expectSign _).bind hc₁ fun _ c₂ hc₂ => ?_
    refine (moves_commaList _ fun lo c hc => ?_).bind hc₂ fun _ c₃ hc₃ => ?_
    · refine moves_moduleName.bind hc fun _ c₁ hc₁ => ?_
      exact (moves_expectSign _).bind hc₁ fun _ c₂ hc₂ => moves_moduleText hc₂
    · exact moves_expectSign _ hc₃
  · exact .pure hc

theorem moves_fromClause : fromClause.Moves := by
  intro lo c hc
  rw [fromClause]
  refine (moves_expectWord _).bind hc fun _ c₁ hc₁ => moves_moduleText.bind hc₁ fun m c₂ hc₂ => ?_
  refine moves_importAttributes.bind hc₂ fun _ c₃ hc₃ => ?_
  exact moves_semicolon.bind hc₃ fun _ c₄ hc₄ => .pure hc₄

/-! ## Imports -/

theorem moves_namedImports (typeOnly : Bool) : (namedImports typeOnly).Moves := by
  intro lo c hc
  rw [namedImports]
  refine (moves_expectSign _).bind hc fun _ c₁ hc₁ => ?_
  refine (moves_commaList _ fun lo c hc => ?_).bind hc₁ fun names c₂ hc₂ => ?_
  · refine (lays_specifier typeOnly).bind hc fun s c₁ hi hs hc₁ => ?_
    extract_lets jp
    split
    · exact .reject_bind
    · exact .pure (hc₁.mono hs.2.le)
  · exact (moves_expectSign _).bind hc₂ fun _ c₃ hc₃ => .pure hc₃

theorem moves_wholeImport : wholeImport.Moves := by
  intro lo c hc
  rw [wholeImport]
  refine (moves_expectSign _).bind hc fun _ c₁ hc₁ => ?_
  refine (moves_expectWord _).bind hc₁ fun _ c₂ hc₂ => ?_
  exact takes_bindingName.moves.bind hc₂ fun name c₃ hc₃ => .pure hc₃

theorem moves_importTail (typeOnly : Bool) : (importTail typeOnly).Moves := by
  intro lo c hc
  rw [importTail]
  refine (stays_atSign _).bind fun star => ?_
  split
  · exact moves_wholeImport.bind hc fun name c₁ hc₁ => .pure hc₁
  · exact moves_namedImports typeOnly hc

/-- A declaration that starts at `start`, after its first word. -/
theorem ensures_importEquals {start : Nat} (typeOnly : Bool) (name : String) (hstart : lo ≤ start)
    (hc : c.At (start + 1)) :
    (importEquals start typeOnly name).Ensures c (Laid Item.Spans lo) := by
  rw [importEquals]
  refine stays_read.bind fun ctx => ?_
  extract_lets jp
  split
  · refine (moves_expectSign _).bind hc fun _ c₁ hc₁ => (stays_peeks _).bind fun requires => ?_
    split
    · refine moves_advance.bind hc₁ fun _ c₂ hc₂ => moves_advance.bind hc₂ fun _ c₃ hc₃ => ?_
      refine moves_moduleText.bind hc₃ fun m c₄ hc₄ => ?_
      refine (moves_expectSign _).bind hc₄ fun _ c₅ hc₅ => ?_
      refine moves_semicolon.bind hc₅ fun _ c₆ hc₆ => ?_
      exact .pure ⟨start + 1, ⟨hstart, start.lt_succ_self⟩, hc₆⟩
    refine (ensures_word_undotted hc₁).bind_stay fun root hroot => ?_
    refine moves_qualifiedName.bind hc₁ fun _ c₂ hc₂ => ?_
    refine moves_semicolon.bind hc₂ fun _ c₃ hc₃ => ?_
    exact .pure ⟨start + 1, ⟨hroot, Nat.lt_succ_of_le hstart⟩, hc₃⟩
  · exact .reject_bind

theorem lays_importDeclaration : importDeclaration.Lays Item.Spans := by
  intro lo c hc
  rw [importDeclaration]
  refine .token_bind ?_
  extract_lets start
  refine (takes_expectWord (by decide)).bind hc.start fun _ c₁ hc₁ => stays_token.bind fun t => ?_
  split
  · refine moves_advance.bind hc₁ fun _ c₂ hc₂ => moves_importAttributes.bind hc₂ fun _ c₃ hc₃ => ?_
    refine moves_semicolon.bind hc₃ fun _ c₄ hc₄ => ?_
    exact .pure ⟨start + 1, ⟨hc.le, start.lt_succ_self⟩, hc₄⟩
  refine (stays_peeks _).bind fun typeOnly => ?_
  extract_lets jp
  have hjp : ∀ c : Cursor, c.At (start + 1) →
      (jp ()).Ensures c (Laid Item.Spans lo) := by
    intro c₁ hc₁
    refine stays_atName.bind fun named => ?_
    split
    · refine takes_bindingName.moves.bind hc₁ fun name c₂ hc₂ => ?_
      refine (stays_atSign _).bind fun equals => ?_
      split
      · exact ensures_importEquals typeOnly name hc.le hc₂
      refine (moves_eatSign _).bind hc₂ fun comma c₃ hc₃ => ?_
      extract_lets jp
      refine (moves_importTail typeOnly).bind_ite (stays_pure []).moves hc₃ fun more c₄ hc₄ => ?_
      refine moves_fromClause.bind hc₄ fun m c₅ hc₅ => ?_
      exact .pure ⟨start + 1, ⟨hc.le, start.lt_succ_self⟩, hc₅⟩
    · refine (moves_importTail typeOnly).bind hc₁ fun names c₂ hc₂ => ?_
      refine moves_fromClause.bind hc₂ fun m c₃ hc₃ => ?_
      exact .pure ⟨start + 1, ⟨hc.le, start.lt_succ_self⟩, hc₃⟩
  split
  · refine stays_read.bind fun ctx => (keepsToken_flagIf _).moves.bind hc₁ fun _ c₂ hc₂ => ?_
    exact moves_advance.bind hc₂ fun _ c₃ hc₃ => hjp c₃ hc₃
  · refine (stays_peeks _).bind fun phase => ?_
    exact moves_advance.bind_if (a := ()) hc₁ fun _ c₂ hc₂ => hjp c₂ hc₂

/-! ## Exports -/

theorem keepsToken_noteExports (names : List String) : (noteExports names).KeepsToken := by
  intro c
  rw [noteExports]
  refine stays_read.bind fun ctx => ?_
  split
  · exact .pure ⟨rfl, rfl, rfl⟩
  · refine .get_bind ?_
    exact (ensures_set _).mono fun _ c₁ h => h ▸ ⟨rfl, rfl, rfl⟩

theorem ensures_exportAll {start : Nat} (typeOnly : Bool) (hstart : lo ≤ start)
    (hc : c.At (start + 1)) : (exportAll start typeOnly).Ensures c (Laid Item.Spans lo) := by
  rw [exportAll]
  refine (moves_expectSign _).bind hc fun _ c₁ hc₁ => ?_
  refine (moves_eatWord _).bind hc₁ fun named c₂ hc₂ => ?_
  extract_lets jp
  have hjp : ∀ name, ∀ c : Cursor, c.At (start + 1) →
      (jp name).Ensures c (Laid Item.Spans lo) := by
    intro name c hc
    refine (keepsToken_noteExports _).moves.bind hc fun _ c₁ hc₁ => ?_
    refine moves_fromClause.bind hc₁ fun m c₂ hc₂ => ?_
    exact .pure ⟨start + 1, ⟨hstart, start.lt_succ_self⟩, hc₂⟩
  split
  · exact moves_moduleName.bind hc₂ fun name c₃ hc₃ => .pure_bind (hjp _ c₃ hc₃)
  · exact .pure_bind (hjp none c₂ hc₂)

theorem ensures_exportNames {start : Nat} (typeOnly : Bool) (hstart : lo ≤ start)
    (hc : c.At (start + 1)) : (exportNames start typeOnly).Ensures c (Laid Item.Spans lo) := by
  rw [exportNames]
  refine (moves_expectSign _).bind hc fun _ c₁ hc₁ => ?_
  refine (lays_commaList _ (lays_specifier typeOnly)).bind hc₁ fun names c₂ hi hnames hc₂ => ?_
  refine (moves_expectSign _).bind hc₂ fun _ c₃ hc₃ => ?_
  refine (keepsToken_noteExports _).moves.bind hc₃ fun _ c₄ hc₄ => ?_
  have hparts := (spanParts_localNames hnames).after (hstart.trans start.le_succ)
  refine (stays_atWord _).bind fun reexports => ?_
  split
  · refine moves_fromClause.bind hc₄ fun m c₅ hc₅ => .pure ⟨hi, ⟨hstart, ?_⟩, hc₅⟩
    exact (spanParts_localNames hnames).le
  · refine moves_semicolon.bind hc₄ fun _ c₅ hc₅ => ?_
    exact (keepsToken_flagIf _).moves.bind hc₅ fun _ c₆ hc₆ => .pure ⟨hi, hparts, hc₆⟩

section Rules

variable {self : Rules} (hself : self.Lay)
include hself

theorem lays_exportDefault : (exportDefault self).Lays SpanParts := by
  intro lo c hc
  rw [exportDefault]
  refine (keepsToken_noteExports _).moves.bind hc fun _ c₁ hc₁ => stays_read.bind fun ctx => ?_
  extract_lets typed follows
  have hclass : (do return (← classTail self).2 : Reader (List Part)).Lays SpanParts :=
    fun _ _ hc => (lays_classTail hself).bind hc fun tail c₁ hi htail hc₁ => .pure ⟨hi, htail, hc₁⟩
  refine (stays_atSign _).bind fun at_ => ?_
  split
  · refine (lays_decorators hself).bind hc₁ fun ds c₂ mid hds hc₂ => ?_
    refine (moves_eatWord _).bind hc₂ fun _ c₃ hc₃ => ?_
    refine (lays_classTail hself).bind hc₃ fun tail c₄ hi htail hc₄ => ?_
    exact .pure ⟨hi, hds.append htail, hc₄⟩
  refine (stays_atWord _).bind fun class_ => ?_
  split
  · exact hclass hc₁
  refine (stays_atWord _).bind fun function_ => stays_asyncFunctionDue.bind fun asyncFunction => ?_
  split
  · refine (moves_eatWord _).bind hc₁ fun async c₂ hc₂ => ?_
    refine (lays_function hself async true).bind hc₂
      fun (name, parts, hasBody) c₃ hi hparts hc₃ => ?_
    dsimp -zeta only at hparts ⊢
    extract_lets jp
    exact moves_semicolon.bind_unless (a := ()) hc₃ fun _ c₄ hc₄ => .pure ⟨hi, hparts, hc₄⟩
  refine (stays_atWord _).bind fun abstract => (stays_peeks _).bind fun classFollows => ?_
  split
  · exact moves_advance.bind hc₁ fun _ c₂ hc₂ => hclass hc₂
  refine (stays_atWord _).bind fun interface => (stays_peeks _).bind fun nameFollows => ?_
  split
  · exact (lays_interfaceDeclaration hself).bind hc₁ fun d c₂ hi hd hc₂ => .pure ⟨hi, hd, hc₂⟩
  refine (hself.assignment true).bind hc₁ fun o c₂ hi ho hc₂ => ?_
  exact moves_semicolon.bind hc₂ fun _ c₃ hc₃ => .pure ⟨hi, ho.single, hc₃⟩

theorem lays_exportedDeclaration : (exportedDeclaration self).Lays SpanParts := by
  intro lo c hc
  rw [exportedDeclaration]
  refine stays_read.bind fun ctx => ?_
  extract_lets typed jp
  have hjp : ∀ (d : Declared) (c : Cursor) (hi : Nat), d.Spans lo hi → c.At hi →
      (jp d).Ensures c (Laid SpanParts lo) := fun d c hi hd hc =>
    (keepsToken_noteExports _).moves.bind hc fun _ c₁ hc₁ => .pure ⟨hi, hd, hc₁⟩
  split
  · exact (lays_typedDeclaration hself).bind hc hjp
  refine stays_word.bind fun w => ?_
  split
  iterate 3 exact (lays_variableStatement hself).bind hc hjp
  · exact (lays_classDeclaration hself).bind hc hjp
  iterate 2 exact (lays_functionDeclaration hself false false).bind hc hjp
  exact .reject_bind

theorem ensures_exportDeclaration {decorated : List Part} (hdecorated : SpanParts decorated lo mid)
    (hc : c.At mid) : (exportDeclaration self decorated).Ensures c (Laid Item.Spans lo) := by
  rw [exportDeclaration]
  refine .token_bind ?_
  extract_lets start marked aliased
  have hlo : lo ≤ start := hdecorated.le.trans hc.le
  have hdecorated : SpanParts decorated lo (start + 1) :=
    hdecorated.upTo (hc.le.trans start.le_succ)
  refine stays_read.bind fun ctx => ?_
  extract_lets typed
  refine (takes_expectWord (by decide)).bind hc.start fun _ c₁ hc₁ => ?_
  refine (stays_peeks _).bind fun typeDue => ?_
  split
  · split
    · refine moves_advance.bind hc₁ fun _ c₂ hc₂ => (stays_atSign _).bind fun star => ?_
      split
      · exact ensures_exportAll true hlo hc₂
      · exact ensures_exportNames true hlo hc₂
    · exact .reject_bind
  refine (stays_atSign _).bind fun star => ?_
  split
  · exact ensures_exportAll false hlo hc₁
  refine (stays_atSign _).bind fun brace => ?_
  split
  · exact ensures_exportNames false hlo hc₁
  refine (moves_eatWord _).bind hc₁ fun default_ c₂ hc₂ => ?_
  split
  · refine (lays_exportDefault hself).bind hc₂ fun parts c₃ hi hparts hc₃ => ?_
    exact .pure ⟨hi, hdecorated.append hparts, hc₃⟩
  refine (stays_atSign _).bind fun equals => ?_
  split
  · refine moves_advance.bind hc₂ fun _ c₃ hc₃ => ?_
    refine hself.expression.bind hc₃ fun o c₄ hi ho hc₄ => ?_
    refine moves_semicolon.bind hc₄ fun _ c₅ hc₅ => ?_
    exact .pure ⟨hi, ho.single.after hdecorated.le, hc₅⟩
  refine (stays_atWord _).bind fun as_ => ?_
  split
  · refine moves_advance.bind hc₂ fun _ c₃ hc₃ => (moves_expectWord _).bind hc₃ fun _ c₄ hc₄ => ?_
    refine takes_bindingName.moves.bind hc₄ fun _ c₅ hc₅ => ?_
    refine moves_semicolon.bind hc₅ fun _ c₆ hc₆ => ?_
    exact .pure ⟨start + 1, (SpanParts.nil lo).upTo hdecorated.le, hc₆⟩
  refine (stays_atWord _).bind fun import_ => ?_
  split
  · refine moves_advance.bind hc₂ fun _ c₃ hc₃ => (stays_peeks _).bind fun typeDue => ?_
    refine moves_advance.bind_if (a := ()) hc₃ fun _ c₄ hc₄ => ?_
    refine takes_bindingName.moves.bind hc₄ fun name c₅ hc₅ => ?_
    refine (ensures_importEquals false name hlo hc₅).bind fun item c₆ ⟨hi, hitem, hc₆⟩ => ?_
    exact .pure ⟨hi, hitem.parts, hc₆⟩
  refine (lays_decorators hself).bind hc₂ fun inner c₃ mid hinner hc₃ => ?_
  refine (stays_peeks _).bind fun classDue => ?_
  refine (keepsToken_flagIf _).moves.bind hc₃ fun _ c₄ hc₄ => ?_
  refine (lays_exportedDeclaration hself).bind hc₄ fun parts c₅ hi hparts hc₅ => ?_
  exact .pure ⟨hi, (hdecorated.append hinner).append hparts, hc₅⟩

end Rules

end Grammar
end Source
end DependencyUse
