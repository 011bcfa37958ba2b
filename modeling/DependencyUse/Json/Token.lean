/-
# JSON tokens

A JSON text is a sequence of tokens with blanks between them; the tokens of a value
are what its text says, and writing a value is writing its tokens.

| token | text |
| --- | --- |
| brackets, colon, comma | themselves |
| `null`, `true`, `false` | themselves |
| number | an optional sign, digits, an optional fraction, an optional exponent |
| string | characters between quotes |

In a string a quote, a backslash and the characters below a blank are escaped, and
escapes name UTF-16 units: the two halves of a pair stand together or not at all.
A number that is no integer of 64 bits is a double, and one too large for a double
is refused.
-/

import DependencyUse.Decimal.Shortest
import DependencyUse.Json.Value

namespace DependencyUse
namespace Json

/-- A token. -/
inductive Token where
  | openObject
  | closeObject
  | openArray
  | closeArray
  | colon
  | comma
  | null
  | bool (value : Bool)
  | number (value : Number)
  | string (value : String)
deriving DecidableEq, Repr, Inhabited

/-! ### Writing -/

/-- A digit below 16. -/
def hexChar (d : Nat) : Char :=
  if d < 10 then Char.ofNat (48 + d) else Char.ofNat (87 + d)

/-- A character as it stands in a string. -/
def escapeChar (c : Char) : List Char :=
  if c = '"' then ['\\', '"']
  else if c = '\\' then ['\\', '\\']
  else if c = '\n' then ['\\', 'n']
  else if c = '\r' then ['\\', 'r']
  else if c = '\t' then ['\\', 't']
  else if c.toNat = 8 then ['\\', 'b']
  else if c.toNat = 12 then ['\\', 'f']
  else if c.toNat < 32 then ['\\', 'u', '0', '0', hexChar (c.toNat / 16), hexChar (c.toNat % 16)]
  else [c]

/-- The text of a string with its quotes. -/
def quoted (s : String) : String :=
  String.ofList ('"' :: s.toList.flatMap escapeChar ++ ['"'])

/-- The text of a number. -/
def Number.text : Number → String
  | .integer i => toString i
  | .decimal m e => toString m ++ "e" ++ toString e

/-- The text of a token. -/
def Token.text : Token → String
  | .openObject => "\x7b"
  | .closeObject => "\x7d"
  | .openArray => "["
  | .closeArray => "]"
  | .colon => ":"
  | .comma => ","
  | .null => "null"
  | .bool true => "true"
  | .bool false => "false"
  | .number n => n.text
  | .string s => quoted s

/-! ### Reading -/

/-- The value of a hexadecimal digit. -/
def hexValue? (c : Char) : Option Nat :=
  let n := c.toNat
  if 48 ≤ n && n ≤ 57 then some (n - 48)
  else if 97 ≤ n && n ≤ 102 then some (n - 87)
  else if 65 ≤ n && n ≤ 70 then some (n - 55)
  else none

/-- The UTF-16 unit that four hexadecimal digits name. -/
def unit? (a b c d : Char) : Option Nat :=
  match hexValue? a, hexValue? b, hexValue? c, hexValue? d with
  | some a, some b, some c, some d => some (((a * 16 + b) * 16 + c) * 16 + d)
  | _, _, _, _ => none

/-- The character of a short escape. -/
def shortEscape? : Char → Option Char
  | '"' => some '"'
  | '\\' => some '\\'
  | '/' => some '/'
  | 'b' => some (Char.ofNat 8)
  | 'f' => some (Char.ofNat 12)
  | 'n' => some '\n'
  | 'r' => some '\r'
  | 't' => some '\t'
  | _ => none

/-- The first half of a pair. -/
def isHighUnit (u : Nat) : Bool := 0xD800 ≤ u && u ≤ 0xDBFF

/-- The second half of a pair. -/
def isLowUnit (u : Nat) : Bool := 0xDC00 ≤ u && u ≤ 0xDFFF

/-- The character of a pair. -/
def pairChar (high low : Nat) : Char :=
  Char.ofNat (0x10000 + (high - 0xD800) * 0x400 + (low - 0xDC00))

/-- A piece of a string: a character, or a UTF-16 unit that an escape names. -/
inductive Piece where
  | char (c : Char)
  | unit (u : Nat)
deriving DecidableEq, Repr, Inhabited

/-- Puts a piece before those that were read. -/
def consPiece (p : Piece) : Option (List Piece × List Char) → Option (List Piece × List Char)
  | some (ps, rest) => some (p :: ps, rest)
  | none => none

/-- The pieces of a string up to its closing quote, and what follows it. -/
def readPieces : List Char → Option (List Piece × List Char)
  | [] => none
  | '"' :: rest => some ([], rest)
  | '\\' :: 'u' :: a :: b :: c :: d :: rest =>
    match unit? a b c d with
    | none => none
    | some u => consPiece (.unit u) (readPieces rest)
  | '\\' :: c :: rest =>
    match shortEscape? c with
    | none => none
    | some x => consPiece (.char x) (readPieces rest)
  | c :: rest =>
    if c.toNat < 32 || c = '\\' then none else consPiece (.char c) (readPieces rest)

/-- The characters of some pieces: two halves of a pair make one, and a half alone
makes none. -/
def joinPieces : List Piece → Option (List Char)
  | [] => some []
  | .char c :: ps => (joinPieces ps).map (c :: ·)
  | .unit u :: ps =>
    if isLowUnit u then none
    else if isHighUnit u then
      match ps with
      | .unit w :: ps => if isLowUnit w then (joinPieces ps).map (pairChar u w :: ·) else none
      | _ => none
    else (joinPieces ps).map (Char.ofNat u :: ·)

/-- The text of a string after its opening quote, and what follows it. -/
def readString (cs : List Char) : Option (String × List Char) :=
  match readPieces cs with
  | some (ps, rest) => (joinPieces ps).map fun out => (String.ofList out, rest)
  | none => none

/-- The value of decimal digits after `start`. -/
def digitsValue (start : Nat) (digits : List Char) : Nat :=
  digits.foldl (fun n c => n * 10 + (c.toNat - 48)) start

/-- Digits, and what follows them. -/
def spanDigits (cs : List Char) : List Char × List Char :=
  (cs.takeWhile Char.isDigit, cs.dropWhile Char.isDigit)

/-- The integer part of a number: a zero alone, or digits that start with another. -/
def readWhole (cs : List Char) : Option (List Char × List Char) :=
  match cs with
  | '0' :: rest => some (['0'], rest)
  | _ => if (spanDigits cs).1.isEmpty then none else some (spanDigits cs)

/-- The fraction of a number, none if there is no point. -/
def readFraction (cs : List Char) : Option (Option (List Char) × List Char) :=
  match cs with
  | '.' :: rest =>
    if (spanDigits rest).1.isEmpty then none
    else some (some (spanDigits rest).1, (spanDigits rest).2)
  | _ => some (none, cs)

/-- The digits of an exponent after its sign. -/
def readExponentDigits (negative : Bool) (cs : List Char) : Option (Option Int × List Char) :=
  let (digits, rest) := spanDigits cs
  if digits.isEmpty then none
  else
    let value : Int := digitsValue 0 digits
    some (some (if negative then -value else value), rest)

/-- The exponent of a number, none if there is no mark. -/
def readExponent (cs : List Char) : Option (Option Int × List Char) :=
  match cs with
  | c :: rest =>
    if c = 'e' || c = 'E' then
      match rest with
      | '+' :: rest => readExponentDigits false rest
      | '-' :: rest => readExponentDigits true rest
      | rest => readExponentDigits false rest
    else some (none, cs)
  | [] => some (none, [])

/-- The leading digits that a word of 64 bits holds after `start`, and the number of
digits that are left. -/
def wordDigits (start : Nat) : List Char → Nat × Nat
  | [] => (start, 0)
  | c :: cs =>
    let next := start * 10 + (c.toNat - 48)
    if next < Nat.pow 2 64 then wordDigits next cs else (start, cs.length + 1)

/-- The number is beyond the largest double.  As many digits as a word holds are
taken for its digits, and the result is the product of two doubles. -/
def tooLarge (whole fraction : List Char) (exponent : Int) : Bool :=
  let (significand, dropped) := wordDigits 0 whole
  let (significand, scale) : Nat × Int :=
    if dropped > 0 then (significand, dropped)
    else
      let (significand, left) := wordDigits significand fraction
      (significand, -((fraction.length : Int) - left))
  let exponent := exponent + scale
  if significand = 0 || exponent < 0 then false
  else if exponent > 308 then true
  else
    match Decimal.nearest ⟨significand, 1⟩, Decimal.nearest ⟨Nat.pow 10 exponent.toNat, 1⟩ with
    | some a, some b => (Decimal.nearest ⟨a.ratio.num * b.ratio.num, a.ratio.den * b.ratio.den⟩).isNone
    | _, _ => true

/-- The number of some digits with an optional fraction and exponent. -/
def number? (negative : Bool) (whole : List Char) (fraction : Option (List Char))
    (exponent : Option Int) : Option Number :=
  let n := digitsValue 0 whole
  let integral := fraction.isNone && exponent.isNone
  if integral && !negative && n < Nat.pow 2 64 then some (.integer n)
  else if integral && negative && 0 < n && n ≤ Nat.pow 2 63 then some (.integer (-n))
  else
    let digits := fraction.getD []
    let shift := exponent.getD 0
    if tooLarge whole digits shift then none
    else
      let mantissa : Int := digitsValue n digits
      some (.decimal (if negative then -mantissa else mantissa) (shift - digits.length))

/-- A number after its sign, and what follows it. -/
def readNumber (negative : Bool) (cs : List Char) : Option (Token × List Char) :=
  match readWhole cs with
  | none => none
  | some (whole, rest) =>
    match readFraction rest with
    | none => none
    | some (fraction, rest) =>
      match readExponent rest with
      | none => none
      | some (exponent, rest) =>
        (number? negative whole fraction exponent).map fun n => (.number n, rest)

/-- A character that may stand between tokens. -/
def isBlank (c : Char) : Bool :=
  c = ' ' || c = '\n' || c = '\t' || c = '\r'

/-- The token that a text starts with, and what follows it. -/
def readToken : List Char → Option (Token × List Char)
  | [] => none
  | '"' :: rest => (readString rest).map fun (text, after) => (.string text, after)
  | '-' :: rest => readNumber true rest
  | '[' :: rest => some (.openArray, rest)
  | ']' :: rest => some (.closeArray, rest)
  | ':' :: rest => some (.colon, rest)
  | ',' :: rest => some (.comma, rest)
  | 'n' :: 'u' :: 'l' :: 'l' :: rest => some (.null, rest)
  | 't' :: 'r' :: 'u' :: 'e' :: rest => some (.bool true, rest)
  | 'f' :: 'a' :: 'l' :: 's' :: 'e' :: rest => some (.bool false, rest)
  | c :: rest =>
    if c = '\x7b' then some (.openObject, rest)
    else if c = '\x7d' then some (.closeObject, rest)
    else readNumber false (c :: rest)

/-! ### Reading takes characters away -/

theorem length_dropWhile_le (p : Char → Bool) (cs : List Char) :
    (cs.dropWhile p).length ≤ cs.length :=
  (List.dropWhile_sublist p).length_le

theorem length_spanDigits (cs : List Char) : (spanDigits cs).2.length ≤ cs.length :=
  length_dropWhile_le Char.isDigit cs

theorem consPiece_eq_some {p : Piece} {r : Option (List Piece × List Char)} {ps : List Piece}
    {rest : List Char} (h : consPiece p r = some (ps, rest)) :
    ∃ qs, r = some (qs, rest) ∧ ps = p :: qs := by
  unfold consPiece at h
  split at h
  · rename_i qs _
    simp only [Option.some.injEq, Prod.mk.injEq] at h
    exact ⟨qs, by rw [h.2], h.1.symm⟩
  · simp at h

theorem length_readPieces {cs rest : List Char} {ps : List Piece}
    (h : readPieces cs = some (ps, rest)) : rest.length < cs.length := by
  fun_induction readPieces cs generalizing ps rest with
  | case1 => simp at h
  | case2 r => simp_all
  | case3 => simp at h
  | case4 a b c d r u hu ih =>
    obtain ⟨qs, hr, _⟩ := consPiece_eq_some h
    have := ih hr
    simp only [List.length_cons]
    omega
  | case5 => simp at h
  | case6 c r _ x hx ih =>
    obtain ⟨qs, hr, _⟩ := consPiece_eq_some h
    have := ih hr
    simp only [List.length_cons]
    omega
  | case7 => simp at h
  | case8 c r _ _ _ _ ih =>
    obtain ⟨qs, hr, _⟩ := consPiece_eq_some h
    have := ih hr
    simp only [List.length_cons]
    omega

theorem length_readString {cs rest : List Char} {text : String}
    (h : readString cs = some (text, rest)) : rest.length < cs.length := by
  unfold readString at h
  split at h
  · rename_i hp
    simp only [Option.map_eq_some_iff, Prod.mk.injEq] at h
    obtain ⟨_, _, _, rfl⟩ := h
    exact length_readPieces hp
  · simp at h

theorem length_readWhole {cs out rest : List Char} (h : readWhole cs = some (out, rest)) :
    rest.length < cs.length := by
  unfold readWhole at h
  split at h
  · simp_all
  · split at h
    · simp at h
    · rename_i hne
      simp only [Option.some.injEq] at h
      have hsplit : cs.takeWhile Char.isDigit ++ cs.dropWhile Char.isDigit = cs :=
        List.takeWhile_append_dropWhile
      have hlen := congrArg List.length hsplit
      rw [List.length_append] at hlen
      have hout : out = cs.takeWhile Char.isDigit := by
        have := congrArg Prod.fst h; simpa [spanDigits] using this.symm
      have hrest : rest = cs.dropWhile Char.isDigit := by
        have := congrArg Prod.snd h; simpa [spanDigits] using this.symm
      have hpos : 0 < (cs.takeWhile Char.isDigit).length := by
        apply List.length_pos_iff.2
        intro hnil
        simp [spanDigits, hnil] at hne
      subst hrest
      omega

theorem length_readFraction {cs rest : List Char} {out : Option (List Char)}
    (h : readFraction cs = some (out, rest)) : rest.length ≤ cs.length := by
  unfold readFraction at h
  split at h
  · rename_i r
    split at h
    · simp at h
    · have := length_spanDigits r
      simp only [Option.some.injEq, Prod.mk.injEq] at h
      rw [← h.2, List.length_cons]
      omega
  · simp_all

theorem length_readExponentDigits {negative : Bool} {cs rest : List Char} {out : Option Int}
    (h : readExponentDigits negative cs = some (out, rest)) : rest.length ≤ cs.length := by
  unfold readExponentDigits at h
  have := length_spanDigits cs
  simp only at h
  split at h
  · simp at h
  · simp only [Option.some.injEq, Prod.mk.injEq] at h
    rw [← h.2]
    exact this

theorem length_readExponent {cs rest : List Char} {out : Option Int}
    (h : readExponent cs = some (out, rest)) : rest.length ≤ cs.length := by
  unfold readExponent at h
  split at h
  · split at h
    · split at h <;>
      · have := length_readExponentDigits h
        simp only [List.length_cons] at *
        omega
    · simp_all
  · simp_all

theorem length_readNumber {negative : Bool} {cs rest : List Char} {t : Token}
    (h : readNumber negative cs = some (t, rest)) : rest.length < cs.length := by
  unfold readNumber at h
  split at h
  · simp at h
  · rename_i hw
    have h₁ := length_readWhole hw
    split at h
    · simp at h
    · rename_i hf
      have h₂ := length_readFraction hf
      split at h
      · simp at h
      · rename_i he
        have h₃ := length_readExponent he
        simp only [Option.map_eq_some_iff, Prod.mk.injEq] at h
        obtain ⟨_, _, _, rfl⟩ := h
        omega

/-- **A token takes at least one character.** -/
theorem length_readToken {cs rest : List Char} {t : Token} (h : readToken cs = some (t, rest)) :
    rest.length < cs.length := by
  unfold readToken at h
  split at h
  · simp at h
  · simp only [Option.map_eq_some_iff] at h
    obtain ⟨⟨out, r⟩, hr, heq⟩ := h
    have := length_readString hr
    simp only [Prod.mk.injEq] at heq
    obtain ⟨_, rfl⟩ := heq
    simp only [List.length_cons]
    omega
  · have := length_readNumber h
    simp only [List.length_cons]
    omega
  all_goals first
    | (simp only [Option.some.injEq, Prod.mk.injEq] at h
       obtain ⟨_, rfl⟩ := h
       simp only [List.length_cons]
       omega)
    | skip
  split at h
  · simp only [Option.some.injEq, Prod.mk.injEq] at h
    obtain ⟨_, rfl⟩ := h
    simp
  · split at h
    · simp only [Option.some.injEq, Prod.mk.injEq] at h
      obtain ⟨_, rfl⟩ := h
      simp
    · exact length_readNumber h

/-- The tokens of a text; `none` if something in it is no token. -/
def tokens (cs : List Char) : Option (List Token) :=
  match cs with
  | [] => some []
  | c :: rest =>
    if isBlank c then tokens rest
    else
      match h : readToken (c :: rest) with
      | none => none
      | some (t, after) =>
        have := length_readToken h
        (tokens after).map (t :: ·)
termination_by cs.length
decreasing_by
  · exact Nat.lt_succ_self _
  · assumption

end Json
end DependencyUse
