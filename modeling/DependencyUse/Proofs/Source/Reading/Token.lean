/-
# Where tokens stand

The tokens of a text come one after the other.  The next one starts where the one before it
stops or later (`le_start_next`), and every token but the end of the text, a number and what
is no token takes up a byte at least (`fits_next`).

| reader | gives |
| --- | --- |
| `readString`, `readTemplate`, `readName`, `readSign` | a rest that the text ends in |
| `readName` | characters of names only, so no dot |
-/

import DependencyUse.Source.Cursor
import Mathlib.Data.List.Infix
import Mathlib.Data.String.Basic

namespace DependencyUse
namespace Source

theorem byteLength_eq_utf8Len (cs : List Char) : byteLength cs = String.utf8Len cs := by
  have hfold : ∀ (cs : List Char) (n : Nat),
      cs.foldl (fun n c => n + c.utf8Size) n = n + String.utf8Len cs := by
    intro cs
    induction cs with
    | nil => intro n; rfl
    | cons d ds ih =>
      intro n
      rw [List.foldl_cons, ih, String.utf8Len_cons]
      omega
  rw [byteLength, hfold, Nat.zero_add]

theorem byteLength_le_of_suffix {rest cs : List Char} (h : rest <:+ cs) :
    byteLength rest ≤ byteLength cs := by
  rw [byteLength_eq_utf8Len, byteLength_eq_utf8Len]
  exact String.utf8Len_le_of_suffix h

/-- A text is longer than what it ends in after its first character. -/
theorem byteLength_lt_cons {rest cs : List Char} (h : rest <:+ cs) (c : Char) :
    byteLength rest < byteLength (c :: cs) := by
  have hle := byteLength_le_of_suffix h
  have hpos := c.utf8Size_pos
  rw [byteLength_eq_utf8Len (c :: cs), String.utf8Len_cons, ← byteLength_eq_utf8Len]
  omega

/-! ## Gaps -/

/-- A gap ends where it starts or later. -/
theorem le_offset_skipGap (script : Bool) (mode : GapMode) (cs : List Char) (offset : Nat)
    (newline : Bool) : offset ≤ (skipGap script mode cs offset newline).offset := by
  fun_induction skipGap script mode cs offset newline <;> grind

/-! ## Literals and names -/

@[grind ←] theorem suffix_cons_of_suffix {rest cs : List Char} (h : rest <:+ cs) (c : Char) :
    rest <:+ c :: cs :=
  h.trans (List.suffix_cons c cs)

@[grind →] theorem suffix_of_unicodeEscape {cs rest : List Char} {code : Nat} {braced : Bool}
    (h : unicodeEscape cs = some (code, rest, braced)) : rest <:+ cs := by
  unfold unicodeEscape at h
  split at h
  · rename_i cs
    simp only at h
    split at h
    · rename_i tail hdrop
      split at h
      · cases h
      · cases h
        have hsuffix := (List.suffix_cons '}' rest).trans (hdrop ▸ List.drop_suffix _ cs)
        exact suffix_cons_of_suffix hsuffix _
    · cases h
  · split at h
    · cases h
      exact List.suffix_append [_, _, _, _] rest
    · cases h
  · cases h

theorem suffix_octalEscape (c : Char) (cs : List Char) : (octalEscape c cs).2 <:+ cs := by
  fun_cases octalEscape c cs
  all_goals grind

theorem suffix_readEscape (template : Bool) (rev : List Glyph) (cs : List Char) :
    (readEscape template rev cs).rest <:+ cs := by
  fun_cases readEscape template rev cs
  all_goals grind [suffix_octalEscape]

theorem suffix_of_readString {quote : Char} {fuel : Nat} {rev : List Glyph} {cs rest : List Char}
    {value : String} (h : readString quote fuel rev cs = some (value, rest)) : rest <:+ cs := by
  fun_induction readString quote fuel rev cs
  all_goals grind [suffix_readEscape]

theorem suffix_of_readTemplate {fuel : Nat} {valid last : Bool} {rev : List Glyph}
    {cs rest : List Char} {cooked : Option String}
    (h : readTemplate fuel valid rev cs = some (cooked, last, rest)) : rest <:+ cs := by
  fun_induction readTemplate fuel valid rev cs
  all_goals grind [suffix_readEscape, List.drop_suffix]

/-- The text after a name is what the text ends in; a name has a character at least. -/
theorem suffix_of_readName {fuel : Nat} {first escaped escaped' : Bool} {rev rev' : List Char}
    {cs rest : List Char} (h : readName fuel first rev escaped cs = some (rev', escaped', rest)) :
    rest <:+ cs ∧ (first = true → rest <:+ cs.tail ∧ cs ≠ []) := by
  fun_induction readName fuel first rev escaped cs
  all_goals grind

theorem dot_notMem_of_readName {fuel : Nat} {first escaped escaped' : Bool} {rev rev' : List Char}
    {cs rest : List Char} (h : readName fuel first rev escaped cs = some (rev', escaped', rest))
    (hrev : '.' ∉ rev) : '.' ∉ rev' := by
  have hstart : Text.isNameStart '.' = false := by decide
  have hpart : Text.isNamePart '.' = false := by decide
  fun_induction readName fuel first rev escaped cs
  all_goals grind

theorem byteLength_drop_lt {s cs : List Char} (hne : s ≠ []) (h : s <+: cs) :
    byteLength (cs.drop s.length) < byteLength cs := by
  obtain ⟨rest, rfl⟩ := h
  obtain ⟨c, s, rfl⟩ := List.exists_cons_of_ne_nil hne
  rw [List.drop_left]
  exact byteLength_lt_cons (List.suffix_append s rest) c

theorem lt_of_readSign {cs rest : List Char} {text : String} (h : readSign cs = some (text, rest)) :
    byteLength rest < byteLength cs := by
  have hnonempty : ∀ s ∈ longSigns, s ≠ [] := by decide
  unfold readSign at h
  simp only at h
  split at h
  · rename_i s hfind
    cases h
    have hfits := List.find?_some hfind
    rw [Bool.and_eq_true, List.isPrefixOf_iff_prefix] at hfits
    exact byteLength_drop_lt (hnonempty s (List.mem_of_find?_eq_some hfind)) hfits.1
  · split at h
    · split at h
      · cases h
        exact byteLength_lt_cons (List.suffix_refl _) _
      · cases h
    · cases h

theorem lt_of_readAngle {cs rest : List Char} {text : String}
    (h : readAngle cs = some (text, rest)) : byteLength rest < byteLength cs := by
  have hnonempty : ∀ s ∈ angleSigns, s ≠ [] := by decide
  obtain ⟨s, hfind, hs⟩ := Option.map_eq_some_iff.1 h
  cases hs
  have hfits := List.find?_some hfind
  rw [ List.isPrefixOf_iff_prefix] at hfits
  exact byteLength_drop_lt (hnonempty s (List.mem_of_find?_eq_some hfind)) hfits

/-! ## Tokens -/

/-- A token that takes up a byte at least. -/
def Kind.isSolid : Kind → Bool
  | .word _ _ | .string _ | .template _ _ | .sign _ => true
  | _ => false

/-- A token stands at the head of a text, and a rest is left of the text after it. -/
structure Token.Fits (t : Token) (here rest : List Char) : Prop where
  start_le : t.start ≤ t.stop
  start_lt : t.kind.isSolid = true → t.start < t.stop
  shorter : t.kind.isSolid = true → byteLength rest < byteLength here
  undotted : ∀ w escaped, t.kind = .word w escaped → '.' ∉ w.toList

theorem isSolid_of_readFraction {whole : Nat} {cs rest : List Char} {kind : Kind}
    (h : readFraction whole cs = some (kind, rest)) : kind.isSolid = false := by
  unfold readFraction at h
  split at h
  · split at h
    · cases h
    · simp only [Option.bind_eq_bind, Option.bind_eq_some_iff] at h
      obtain ⟨_, -, _, -, h⟩ := h
      cases h
      rfl
  · simp only [Option.bind_eq_bind, Option.bind_eq_some_iff] at h
    obtain ⟨_, -, h⟩ := h
    cases h
    rfl

theorem isSolid_of_readBased {base : Nat} {cs rest : List Char} {kind : Kind}
    (h : readBased base cs = some (kind, rest)) : kind.isSolid = false := by
  unfold readBased at h
  simp only [Option.bind_eq_bind, Option.bind_eq_some_iff] at h
  obtain ⟨⟨value, count, after⟩, -, h⟩ := h
  split at h
  · cases h
  · split at h <;> cases h <;> rfl

/-- A number is not counted as solid: nothing of it is kept. -/
theorem isSolid_of_readNumber {cs rest : List Char} {kind : Kind}
    (h : readNumber cs = some (kind, rest)) : kind.isSolid = false := by
  unfold readNumber at h
  split at h
  iterate 6 exact isSolid_of_readBased h
  · cases h
  · split at h
    · dsimp only at h
      split at h
      · cases h
        rfl
      · exact isSolid_of_readFraction h
    · split at h
      · cases h
        rfl
      · exact isSolid_of_readFraction h
  · exact isSolid_of_readFraction h
  · simp only [Option.bind_eq_bind, Option.bind_eq_some_iff] at h
    obtain ⟨⟨value, count, after⟩, -, h⟩ := h
    split at h
    · cases h
      rfl
    · exact isSolid_of_readFraction h

/-- What `readKind` gives: a solid token takes something off the text, and a word has no dot. -/
structure KindFits (cs : List Char) (read : Kind × List Char) : Prop where
  shorter : read.1.isSolid = true → byteLength read.2 < byteLength cs
  undotted : ∀ w escaped, read.1 = .word w escaped → '.' ∉ w.toList

theorem KindFits.of_not_solid {cs rest : List Char} {kind : Kind} (h : kind.isSolid = false) :
    KindFits cs (kind, rest) where
  shorter hsolid := absurd (h.symm.trans hsolid) Bool.false_ne_true
  undotted _ _ hword := absurd (h.symm.trans (congrArg Kind.isSolid hword)) Bool.false_ne_true

theorem kindFits_readKind (cs : List Char) : KindFits cs (readKind cs) := by
  unfold readKind
  split
  · exact .of_not_solid rfl
  · rename_i c rest
    split
    · split
      · rename_i hread
        exact ⟨fun _ => byteLength_lt_cons (suffix_of_readString hread) c, by simp⟩
      · exact .of_not_solid rfl
    · split
      · split
        · rename_i hread
          exact ⟨fun _ => byteLength_lt_cons (suffix_of_readTemplate hread) c, by simp⟩
        · exact .of_not_solid rfl
      · split
        · split
          · rename_i hread
            have hnumber := isSolid_of_readNumber hread
            split
            · split
              · exact .of_not_solid rfl
              · exact .of_not_solid hnumber
            · exact .of_not_solid hnumber
          · exact .of_not_solid rfl
        · split
          · split <;> exact .of_not_solid rfl
          · split
            · split
              · rename_i hread
                obtain ⟨hsuffix, -⟩ := (suffix_of_readName hread).2 rfl
                refine ⟨fun _ => byteLength_lt_cons hsuffix c, fun w escaped hword => ?_⟩
                cases hword
                simpa using dot_notMem_of_readName hread List.not_mem_nil
              · exact .of_not_solid rfl
            · split
              · rename_i hread
                exact ⟨fun _ => lt_of_readSign hread, by simp⟩
              · exact .of_not_solid rfl

theorem le_start_next (script lineHead : Bool) (cs : List Char) (offset : Nat) :
    offset ≤ (next script lineHead cs offset).token.start := by
  have hgap := le_offset_skipGap script .blank cs offset lineHead
  rw [next]
  split <;> exact hgap

/-- **The next token fits**: it stops where it starts or later, and later if it is solid. -/
theorem fits_next (script lineHead : Bool) (cs : List Char) (offset : Nat) :
    (next script lineHead cs offset).token.Fits (next script lineHead cs offset).here
      (next script lineHead cs offset).rest := by
  rw [next]
  split
  · have hkind := kindFits_readKind (skipGap script .blank cs offset lineHead).rest
    exact {
      start_le := Nat.le_add_right _ _
      start_lt := fun hsolid => Nat.lt_add_of_pos_right (Nat.sub_pos_of_lt (hkind.shorter hsolid))
      shorter := hkind.shorter
      undotted := hkind.undotted }
  · exact ⟨Nat.le_refl _, by simp [Kind.isSolid], by simp [Kind.isSolid], by simp⟩

end Source
end DependencyUse
