/-
# The order of texts by their bytes

Texts are compared by their characters.  They could as well be compared by the bytes in which
they are stored:

| two characters | are told apart by |
| --- | --- |
| of different length in bytes | the first byte, which is greater for the longer one |
| of the same length | the bytes as digits of their code, the highest first |

So a smaller character has smaller bytes whatever follows (`utf8EncodeChar_append_lt`), and the
two orders are one (`bytes_lt_iff`).
-/

import Mathlib.Data.String.Basic

namespace DependencyUse
namespace Text

/-- The bytes of a text. -/
def bytes (s : String) : List UInt8 :=
  s.toUTF8.data.toList

theorem bytes_eq_flatMap (s : String) : bytes s = s.toList.flatMap String.utf8EncodeChar := by
  have hbytes : s.toUTF8 = s.toList.utf8Encode := by
    rw [← String.toByteArray_ofList, String.ofList_toList]
    rfl
  rw [bytes, hbytes, List.utf8Encode]
  simp

/-- Numbers are compared by their digits to the base 64. -/
theorem lt_digit {v w : Nat} (h : v < w) : v / 64 < w / 64 ∨ v / 64 = w / 64 ∧ v % 64 < w % 64 := by
  omega

theorem lt_digits {v w : Nat} (h : v < w) :
    v / 262144 < w / 262144 ∨ v / 262144 = w / 262144 ∧
      (v / 4096 % 64 < w / 4096 % 64 ∨ v / 4096 % 64 = w / 4096 % 64 ∧
        (v / 64 % 64 < w / 64 % 64 ∨ v / 64 % 64 = w / 64 % 64 ∧ v % 64 < w % 64)) := by
  have hdiv : ∀ n, n / 64 / 64 = n / 4096 := fun n => Nat.div_div_eq_div_mul n 64 64
  have hdiv' : ∀ n, n / 4096 / 64 = n / 262144 := fun n => Nat.div_div_eq_div_mul n 4096 64
  rcases lt_digit h with h | ⟨h₁, h⟩
  · rcases lt_digit h with h | ⟨h₂, h⟩
    · rw [hdiv, hdiv] at h
      rcases lt_digit h with h | ⟨h₃, h⟩
      · rw [hdiv', hdiv'] at h
        exact .inl h
      · rw [hdiv', hdiv'] at h₃
        exact .inr ⟨h₃, .inl h⟩
    · rw [hdiv, hdiv] at h₂
      have h₃ : v / 262144 = w / 262144 := by rw [← hdiv', ← hdiv', h₂]
      exact .inr ⟨h₃, .inr ⟨by rw [h₂], .inl h⟩⟩
  · have h₂ : v / 4096 = w / 4096 := by rw [← hdiv, ← hdiv, h₁]
    have h₃ : v / 262144 = w / 262144 := by rw [← hdiv', ← hdiv', h₂]
    exact .inr ⟨h₃, .inr ⟨by rw [h₂], .inr ⟨by rw [h₁], h⟩⟩⟩

/-- **A smaller character has smaller bytes**, whatever follows. -/
theorem utf8EncodeChar_append_lt {c d : Char} (h : c < d) (s t : List UInt8) :
    String.utf8EncodeChar c ++ s < String.utf8EncodeChar d ++ t := by
  have hlt : c.val.toNat < d.val.toNat := by
    rwa [← UInt32.lt_iff_toNat_lt, ← Char.lt_def]
  have hmax : d.val.toNat < 1114112 := by
    rcases d.valid with hlow | hhigh
    · exact hlow.trans (by decide)
    · exact hhigh.2
  unfold String.utf8EncodeChar
  generalize c.val.toNat = v at *
  generalize d.val.toNat = w at *
  dsimp only
  by_cases hfour : v ≤ 65535
  · split_ifs <;>
      · simp only [List.cons_append, List.nil_append, List.cons_lt_cons_iff, UInt8.lt_iff_toNat_lt,
          ← UInt8.toNat_inj, UInt8.toNat_ofNat', Nat.reducePow]
        omega
  · -- both have four bytes
    rw [if_neg (by omega), if_neg (by omega), if_neg hfour, if_neg (by omega), if_neg (by omega),
      if_neg (by omega)]
    simp only [List.cons_append, List.nil_append, List.cons_lt_cons_iff, UInt8.lt_iff_toNat_lt,
      ← UInt8.toNat_inj, UInt8.toNat_ofNat', Nat.reducePow]
    rcases lt_digits hlt with h | ⟨h₃, h | ⟨h₂, h | ⟨h₁, h⟩⟩⟩ <;> omega

theorem utf8EncodeChar_ne_nil (c : Char) : String.utf8EncodeChar c ≠ [] := by
  unfold String.utf8EncodeChar
  dsimp only
  split_ifs <;> nofun

theorem flatMap_utf8EncodeChar_lt {cs ds : List Char} (h : cs < ds) :
    cs.flatMap String.utf8EncodeChar < ds.flatMap String.utf8EncodeChar := by
  induction cs generalizing ds with
  | nil =>
    cases ds with
    | nil => exact absurd h (List.lt_irrefl _)
    | cons d ds =>
      obtain ⟨b, bs, hbytes⟩ := List.exists_cons_of_ne_nil (utf8EncodeChar_ne_nil d)
      rw [List.flatMap_nil, List.flatMap_cons, hbytes]
      exact List.nil_lt_cons ..
  | cons c cs ih =>
    cases ds with
    | nil => exact absurd h (List.not_lt_nil _)
    | cons d ds =>
      rw [List.flatMap_cons, List.flatMap_cons]
      rcases List.cons_lt_cons_iff.1 h with hlt | ⟨rfl, hlt⟩
      · exact utf8EncodeChar_append_lt hlt _ _
      · exact List.append_left_lt (ih hlt)

/-- **Texts are ordered as their bytes are.** -/
theorem bytes_lt_iff {a b : String} : bytes a < bytes b ↔ a < b := by
  have hmono : ∀ {a b : String}, a < b → bytes a < bytes b := by
    intro a b h
    rw [bytes_eq_flatMap, bytes_eq_flatMap]
    exact flatMap_utf8EncodeChar_lt (String.lt_iff.1 h)
  refine ⟨fun h => ?_, hmono⟩
  rcases lt_trichotomy a b with hlt | rfl | hgt
  · exact hlt
  · exact absurd h (List.lt_irrefl _)
  · exact absurd (List.lt_trans h (hmono hgt)) (List.lt_irrefl _)

end Text
end DependencyUse
