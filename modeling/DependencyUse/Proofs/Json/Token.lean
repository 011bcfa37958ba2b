/-
# Tokens are read as they are written

| token | its text is read back |
| --- | --- |
| string | always: what is escaped when it is written is what an escape stands for |
| number | if it is a word of 64 bits, and what follows does not go on with the number |
| any other | always |

Blanks before a token do not matter.  `Spells` relates characters to the tokens that they
say: the texts of the tokens in their order, with blanks between them.  Characters that
spell tokens are read as these (`tokens_of_spells`), if no number follows a number.
-/

import DependencyUse.Json.Writer
import Mathlib.Data.List.Chain
import Mathlib.Data.List.TakeWhile
import Mathlib.Tactic.IntervalCases

namespace DependencyUse
namespace Json

/-! ### Strings -/

theorem hexValue?_hexChar : ∀ d < 16, hexValue? (hexChar d) = some d := by decide

/-- A character is written as a short escape, as the number of its unit, or as itself. -/
theorem escapeChar_cases (c : Char) :
    (∃ e, escapeChar c = ['\\', e] ∧ shortEscape? e = some c) ∨
      (c.toNat < 32 ∧ escapeChar c
        = ['\\', 'u', '0', '0', hexChar (c.toNat / 16), hexChar (c.toNat % 16)]) ∨
      (¬ c.toNat < 32 ∧ c ≠ '"' ∧ c ≠ '\\' ∧ escapeChar c = [c]) := by
  unfold escapeChar
  split
  · subst c
    exact .inl ⟨'"', rfl, rfl⟩
  split
  · subst c
    exact .inl ⟨'\\', rfl, rfl⟩
  split
  · subst c
    exact .inl ⟨'n', rfl, rfl⟩
  split
  · subst c
    exact .inl ⟨'r', rfl, rfl⟩
  split
  · subst c
    exact .inl ⟨'t', rfl, rfl⟩
  split
  · rename_i hc
    exact .inl ⟨'b', rfl, by rw [← Char.ofNat_toNat c, hc]; rfl⟩
  split
  · rename_i hc
    exact .inl ⟨'f', rfl, by rw [← Char.ofNat_toNat c, hc]; rfl⟩
  split
  · rename_i hc
    exact .inr (.inl ⟨hc, rfl⟩)
  · rename_i hquote hback _ _ _ _ _ hc
    exact .inr (.inr ⟨hc, hquote, hback, rfl⟩)

theorem readPieces_short {e c : Char} (h : shortEscape? e = some c) (rest : List Char) :
    readPieces ('\\' :: e :: rest) = consPiece (.char c) (readPieces rest) := by
  have hu : e ≠ 'u' := by
    rintro rfl
    cases h
  rw [readPieces, h]
  simp [hu]

/-- A unit below the halves of pairs is a character. -/
theorem joinPieces_unit {u : Nat} (hu : u < 0xD800) (ps : List Piece) :
    joinPieces (.unit u :: ps) = (joinPieces ps).map (Char.ofNat u :: ·) := by
  have hlow : isLowUnit u = false := by simp [isLowUnit]; omega
  have hhigh : isHighUnit u = false := by simp [isHighUnit]; omega
  rw [joinPieces.eq_def]
  simp [hlow, hhigh]

/-- **A character of a string is read back**, as itself or as the unit that an escape
names. -/
theorem readPieces_escapeChar (c : Char) (rest : List Char) :
    ∃ p, readPieces (escapeChar c ++ rest) = consPiece p (readPieces rest) ∧
      ∀ ps, joinPieces (p :: ps) = (joinPieces ps).map (c :: ·) := by
  obtain ⟨e, heq, he⟩ | ⟨hc, heq⟩ | ⟨hc, hquote, hback, heq⟩ := escapeChar_cases c
  · rw [heq]
    exact ⟨.char c, readPieces_short he rest, fun ps => rfl⟩
  · refine ⟨.unit c.toNat, ?_, fun ps => ?_⟩
    · have hunit : unit? '0' '0' (hexChar (c.toNat / 16)) (hexChar (c.toNat % 16))
          = some c.toNat := by
        have hzero : hexValue? '0' = some 0 := rfl
        rw [unit?, hzero, hexValue?_hexChar (c.toNat / 16) (by omega),
          hexValue?_hexChar (c.toNat % 16) (by omega)]
        simp only [Option.some.injEq]
        omega
      rw [heq]
      show readPieces ('\\' :: 'u' :: '0' :: '0' :: _ :: _ :: rest) = _
      rw [readPieces, hunit]
    · rw [joinPieces_unit (by omega), Char.ofNat_toNat]
  · refine ⟨.char c, ?_, fun ps => rfl⟩
    rw [heq, List.singleton_append, readPieces, if_neg (by simp [hc, hback])]
    · simpa using hquote
    · simp [hback]
    · simp [hback]

/-- **The characters of a string are read back.** -/
theorem readPieces_flatMap_escapeChar (cs rest : List Char) :
    ∃ ps, readPieces (cs.flatMap escapeChar ++ '"' :: rest) = some (ps, rest) ∧
      joinPieces ps = some cs := by
  induction cs with
  | nil => exact ⟨[], rfl, rfl⟩
  | cons c cs ih =>
    obtain ⟨ps, hps, hjoin⟩ := ih
    obtain ⟨p, hp, hjoinp⟩ := readPieces_escapeChar c (cs.flatMap escapeChar ++ '"' :: rest)
    refine ⟨p :: ps, ?_, by rw [hjoinp, hjoin]; rfl⟩
    rw [List.flatMap_cons, List.append_assoc, hp, hps]
    rfl

theorem readToken_quoted (s : String) (rest : List Char) :
    readToken ((quoted s).toList ++ rest) = some (.string s, rest) := by
  obtain ⟨ps, hps, hjoin⟩ := readPieces_flatMap_escapeChar s.toList rest
  have hread : readString (s.toList.flatMap escapeChar ++ '"' :: rest) = some (s, rest) := by
    rw [readString, hps]
    simp [hjoin]
  have hsplit : (quoted s).toList ++ rest
      = '"' :: (s.toList.flatMap escapeChar ++ '"' :: rest) := by simp [quoted]
  rw [hsplit, readToken, hread]
  rfl

/-! ### Numbers -/

/-- A character that goes on with a number. -/
def continuesNumber (c : Char) : Bool :=
  c.isDigit || c == '.' || c == 'e' || c == 'E'

/-- What follows a number does not go on with it. -/
def EndsNumber (rest : List Char) : Prop :=
  ∀ c ∈ rest.head?, continuesNumber c = false

theorem spanDigits_append {digits rest : List Char} (hdigits : ∀ c ∈ digits, c.isDigit = true)
    (hrest : EndsNumber rest) : spanDigits (digits ++ rest) = (digits, rest) := by
  rw [spanDigits, List.takeWhile_append_of_pos hdigits, List.dropWhile_append_of_pos hdigits]
  cases rest with
  | nil => simp
  | cons c rest =>
    have hc : c.isDigit = false := by
      have := hrest c rfl
      simp only [continuesNumber, Bool.or_eq_false_iff] at this
      exact this.1.1.1
    simp [hc]

theorem digitsValue_toDigits (n : Nat) : digitsValue 0 (Nat.toDigits 10 n) = n := by
  have hfold : digitsValue 0 (Nat.toDigits 10 n) = Nat.ofDigitChars 10 (Nat.toDigits 10 n) 0 := by
    rw [digitsValue, Nat.ofDigitChars_eq_foldl]
    simp [Nat.mul_comm]
  rw [hfold, Nat.ofDigitChars_ten_toDigits]

theorem isDigit_of_mem {n : Nat} {c : Char} (hc : c ∈ Nat.toDigits 10 n) : c.isDigit = true :=
  Nat.isDigit_of_mem_toDigits (by decide) (by decide) hc

/-- Only zero is written with a zero at the start. -/
theorem exists_toDigits_eq_cons (n : Nat) :
    ∃ d ds, Nat.toDigits 10 n = d :: ds ∧ (0 < n → d ≠ '0') := by
  induction n using Nat.strongRecOn with
  | ind n ih =>
    by_cases hlt : n < 10
    · refine ⟨n.digitChar, [], Nat.toDigits_of_lt_base hlt, fun hn => ?_⟩
      interval_cases n <;> decide
    · obtain ⟨d, ds, heq, hd⟩ := ih (n / 10) (by omega)
      refine ⟨d, ds ++ [(n % 10).digitChar], ?_, fun _ => hd (by omega)⟩
      rw [Nat.toDigits_of_base_le (by decide) (by omega), heq, List.cons_append]

theorem readWhole_toDigits (n : Nat) {rest : List Char} (hrest : EndsNumber rest) :
    readWhole (Nat.toDigits 10 n ++ rest) = some (Nat.toDigits 10 n, rest) := by
  have hspan : spanDigits (Nat.toDigits 10 n ++ rest) = (Nat.toDigits 10 n, rest) :=
    spanDigits_append (fun c hc => isDigit_of_mem hc) hrest
  rcases Nat.eq_zero_or_pos n with rfl | hn
  · rfl
  · obtain ⟨d, ds, heq, hd⟩ := exists_toDigits_eq_cons n
    rw [heq, List.cons_append] at hspan
    rw [heq, List.cons_append]
    unfold readWhole
    split
    · rename_i hzero
      exact absurd (List.cons.inj hzero).1 (hd hn)
    · simp [hspan]

theorem readFraction_of_ends {rest : List Char} (hrest : EndsNumber rest) :
    readFraction rest = some (none, rest) := by
  unfold readFraction
  split
  · exact absurd (hrest '.' rfl) (by decide)
  · rfl

theorem readExponent_of_ends {rest : List Char} (hrest : EndsNumber rest) :
    readExponent rest = some (none, rest) := by
  cases rest with
  | nil => rfl
  | cons c rest =>
    have hc := hrest c rfl
    simp only [continuesNumber, Bool.or_eq_false_iff, beq_eq_false_iff_ne] at hc
    simp [readExponent, hc.1.2, hc.2]

theorem readNumber_toDigits {n : Nat} (hn : n < 2 ^ 64) {rest : List Char}
    (hrest : EndsNumber rest) :
    readNumber false (Nat.toDigits 10 n ++ rest) = some (.number (.integer n), rest) := by
  have hword : n < Nat.pow 2 64 := hn
  have hnumber : number? false (Nat.toDigits 10 n) none none = some (.integer n) := by
    simp [number?, digitsValue_toDigits, hword]
  simp [readNumber, readWhole_toDigits n hrest, readFraction_of_ends hrest,
    readExponent_of_ends hrest, hnumber]

/-- What starts with a digit is a number. -/
theorem readToken_digit {c : Char} (hc : c.isDigit = true) (rest : List Char) :
    readToken (c :: rest) = readNumber false (c :: rest) := by
  have hne : ∀ x : Char, x.isDigit = false → c ≠ x := by
    rintro x hx rfl
    exact absurd (hc.symm.trans hx) (by decide)
  rw [readToken, if_neg (hne _ (by decide)), if_neg (hne _ (by decide))]
  · exact hne _ (by decide)
  · exact hne _ (by decide)
  · exact hne _ (by decide)
  · exact hne _ (by decide)
  · exact hne _ (by decide)
  · exact hne _ (by decide)
  · exact fun _ h _ => hne _ (by decide) h
  · exact fun _ h _ => hne _ (by decide) h
  · exact fun _ h _ => hne _ (by decide) h

/-! ### Tokens -/

namespace Token

/-- A number. -/
def isNumber : Token → Bool
  | .number _ => true
  | _ => false

/-- A token whose text is read back: a number is a word. -/
def IsWritable : Token → Prop
  | .number n => ∃ k < 2 ^ 64, n = .integer (Int.ofNat k)
  | _ => True

/-- Only a number goes on with a number. -/
theorem endsNumber_text {t : Token} (ht : t.isNumber = false) (rest : List Char) :
    EndsNumber (t.text.toList ++ rest) := by
  intro c hc
  cases t with
  | number n => cases ht
  | bool b => cases b <;> cases hc <;> rfl
  | string s =>
    rw [text, quoted, String.toList_ofList] at hc
    cases hc
    rfl
  | _ => cases hc; rfl

/-- **A token is read as it is written.** -/
theorem readToken_text {t : Token} (ht : t.IsWritable) {rest : List Char}
    (hrest : t.isNumber = true → EndsNumber rest) :
    readToken (t.text.toList ++ rest) = some (t, rest) := by
  cases t with
  | number n =>
    obtain ⟨k, hk, rfl⟩ := ht
    obtain ⟨d, ds, heq, -⟩ := exists_toDigits_eq_cons k
    have htext : (Token.number (.integer (Int.ofNat k))).text.toList = Nat.toDigits 10 k := by
      show (toString k).toList = _
      rw [Nat.toString_eq_ofList_toDigits, String.toList_ofList]
    have hd : d.isDigit = true := isDigit_of_mem (n := k) (by rw [heq]; exact List.mem_cons_self)
    have hread := readNumber_toDigits hk (hrest rfl)
    rw [htext]
    rw [heq, List.cons_append] at hread ⊢
    rw [readToken_digit hd, hread]
    rfl
  | string s => exact readToken_quoted s rest
  | bool b => cases b <;> rfl
  | _ => rfl

end Token

theorem readToken_blank {c : Char} (hc : isBlank c = true) (rest : List Char) :
    readToken (c :: rest) = none := by
  simp only [isBlank, Bool.or_eq_true, decide_eq_true_eq] at hc
  rcases hc with ((rfl | rfl) | rfl) | rfl <;> rfl

@[simp] theorem tokens_nil : tokens [] = some [] := by
  rw [tokens]

theorem tokens_blank {c : Char} (hc : isBlank c = true) (rest : List Char) :
    tokens (c :: rest) = tokens rest := by
  rw [tokens, if_pos hc]

theorem tokens_of_readToken {cs rest : List Char} {t : Token} (h : readToken cs = some (t, rest)) :
    tokens cs = (tokens rest).map (t :: ·) := by
  cases cs with
  | nil => cases h
  | cons c cs =>
    have hc : isBlank c ≠ true := by
      intro hc
      rw [readToken_blank hc] at h
      cases h
    rw [tokens, if_neg hc]
    split
    · rename_i hnone
      rw [hnone] at h
      cases h
    · rename_i hsome
      rw [hsome] at h
      cases h
      rfl

/-! ### Texts -/

/-- Characters that say some tokens, with blanks between them. -/
inductive Spells : List Char → List Token → Prop
  | done : Spells [] []
  | blank {c : Char} {cs : List Char} {ts : List Token} (hc : isBlank c = true)
      (h : Spells cs ts) : Spells (c :: cs) ts
  | token (t : Token) {cs : List Char} {ts : List Token} (h : Spells cs ts) :
      Spells (t.text.toList ++ cs) (t :: ts)

namespace Spells

theorem append {cs ds : List Char} {ts us : List Token} (h : Spells cs ts) (h' : Spells ds us) :
    Spells (cs ++ ds) (ts ++ us) := by
  induction h with
  | done => exact h'
  | blank hc _ ih => exact .blank hc ih
  | token t _ ih =>
    rw [List.append_assoc]
    exact .token t ih

theorem blanks {cs : List Char} (h : ∀ c ∈ cs, isBlank c = true) : Spells cs [] := by
  induction cs with
  | nil => exact .done
  | cons c cs ih =>
    exact .blank (h c List.mem_cons_self) (ih fun d hd => h d (List.mem_cons_of_mem c hd))

/-- Tokens that do not start with a number end one. -/
theorem endsNumber {cs : List Char} {ts : List Token} (h : Spells cs ts)
    (hts : ∀ t ∈ ts.head?, t.isNumber = false) : EndsNumber cs := by
  cases h with
  | done =>
    intro c hc
    cases hc
  | @blank c cs ts hc _ =>
    intro d hd
    cases hd
    simp only [isBlank, Bool.or_eq_true, decide_eq_true_eq] at hc
    rcases hc with ((rfl | rfl) | rfl) | rfl <;> rfl
  | @token t cs ts _ => exact Token.endsNumber_text (hts t rfl) cs

end Spells

/-- **Characters are read as the tokens that they spell.** -/
theorem tokens_of_spells {cs : List Char} {ts : List Token} (h : Spells cs ts)
    (hwritable : ∀ t ∈ ts, t.IsWritable)
    (hchain : ts.IsChain fun t u => t.isNumber = true → u.isNumber = false) :
    tokens cs = some ts := by
  induction h with
  | done => exact tokens_nil
  | blank hc _ ih =>
    rw [tokens_blank hc]
    exact ih hwritable hchain
  | @token t cs ts h ih =>
    have hends : t.isNumber = true → EndsNumber cs := fun ht =>
      h.endsNumber fun u hu => hchain.rel_head? hu ht
    have hread := Token.readToken_text (hwritable t List.mem_cons_self) hends
    rw [tokens_of_readToken hread,
      ih (fun u hu => hwritable u (List.mem_cons_of_mem t hu)) hchain.tail]
    rfl

end Json
end DependencyUse
