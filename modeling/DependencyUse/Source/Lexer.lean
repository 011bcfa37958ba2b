/-
# Reading one token

`next script cs offset` skips the blanks and comments at the head of `cs`, which
starts at byte `offset` of the text, and reads the token after them.  Comments:

| from | to | where |
| --- | --- | --- |
| `//` | end of line | everywhere |
| `/*` | `*/` | everywhere; one that is not closed is no gap |
| `<!--` | end of line | in scripts |
| `-->` | end of line | in scripts, at the head of a line |

A string, template or name is decoded while it is read.  A `\u` escape of half a
surrogate pair that has no other half stands for no character; the value of such
a literal holds U+FFFD and the four digits of the half instead, and U+FFFD itself
is then followed by `fffd`, so that different literals keep different values.
-/

import DependencyUse.Source.Token
import DependencyUse.Text.Letters

namespace DependencyUse
namespace Source

open Text (isNameStart isNamePart)

/-! ## Gaps -/

/-- Where the reading of a gap stands. -/
inductive GapMode where
  | blank
  | line
  /-- on the `*` of an opening `/*` -/
  | opening
  | block
  /-- on the `/` of a closing `*/` -/
  | closing

/-- What follows a gap. -/
structure Gap where
  rest : List Char
  offset : Nat
  newline : Bool
  /-- no comment is left open -/
  closed : Bool

/-- Skips blanks and comments. -/
def skipGap (script : Bool) : GapMode → List Char → Nat → Bool → Gap
  | .blank, [], n, nl => ⟨[], n, nl, true⟩
  | .line, [], n, nl => ⟨[], n, nl, true⟩
  | .opening, [], n, nl => ⟨[], n, nl, false⟩
  | .block, [], n, nl => ⟨[], n, nl, false⟩
  | .closing, [], n, nl => ⟨[], n, nl, false⟩
  | .blank, c :: cs, n, nl =>
    if isLineEnd c then skipGap script .blank cs (n + c.utf8Size) true
    else if isGapBlank c then skipGap script .blank cs (n + c.utf8Size) nl
    else if c == '/' && cs.head? == some '/' then skipGap script .line cs (n + 1) nl
    else if c == '/' && cs.head? == some '*' then skipGap script .opening cs (n + 1) nl
    else if script && c == '<' && cs.take 3 == ['!', '-', '-'] then
      skipGap script .line cs (n + 1) nl
    else if script && nl && c == '-' && cs.take 2 == ['-', '>'] then
      skipGap script .line cs (n + 1) nl
    else ⟨c :: cs, n, nl, true⟩
  | .line, c :: cs, n, nl =>
    if isLineEnd c then skipGap script .blank cs (n + c.utf8Size) true
    else skipGap script .line cs (n + c.utf8Size) nl
  | .opening, _ :: cs, n, nl => skipGap script .block cs (n + 1) nl
  | .block, c :: cs, n, nl =>
    if c == '*' && cs.head? == some '/' then skipGap script .closing cs (n + 1) nl
    else skipGap script .block cs (n + c.utf8Size) (nl || isLineEnd c)
  | .closing, _ :: cs, n, nl => skipGap script .blank cs (n + 1) nl

/-! ## Escapes -/

/-- The code point of a `\u` escape, read after the `u`, with the characters after
it and whether it stood in braces. -/
def unicodeEscape : List Char → Option (Nat × List Char × Bool)
  | '{' :: cs =>
    let digits := cs.takeWhile fun c => (hexDigit? c).isSome
    let value := digits.foldl (fun n c => if n > 0x10FFFF then n else n * 16 + (hexDigit? c).getD 0) 0
    match cs.drop digits.length with
    | '}' :: rest => if digits.isEmpty || value > 0x10FFFF then none else some (value, rest, true)
    | _ => none
  | a :: b :: c :: d :: rest =>
    match hexDigit? a, hexDigit? b, hexDigit? c, hexDigit? d with
    | some a, some b, some c, some d => some (((a * 16 + b) * 16 + c) * 16 + d, rest, false)
    | _, _, _, _ => none
  | _ => none

/-- A decoded character of a literal, or half of a surrogate pair. -/
inductive Glyph where
  | char (c : Char)
  | half (code : Nat)

/-- The glyph of a code point. -/
def Glyph.ofCode (n : Nat) : Glyph :=
  if 0xD800 ≤ n && n ≤ 0xDFFF then .half n else .char (Char.ofNat n)

/-- The four lower-case hexadecimal digits of `n`. -/
def hex4 (n : Nat) : List Char :=
  [n / 4096 % 16, n / 256 % 16, n / 16 % 16, n % 16].map Nat.digitChar

/-- The text of decoded glyphs, given last to first. -/
def glyphText (rev : List Glyph) : String :=
  let lone := rev.any fun g => match g with | .half _ => true | .char _ => false
  String.ofList <| rev.foldl (fun tail g => match g with
    | .half n => '\ufffd' :: (hex4 n ++ tail)
    | .char c =>
      if lone && c == '\ufffd' then '\ufffd' :: 'f' :: 'f' :: 'f' :: 'd' :: tail else c :: tail) []

/-- Adds the glyph of a `\uXXXX` escape; the second half of a pair joins the first. -/
def pushCode (rev : List Glyph) (code : Nat) (braced : Bool) : List Glyph :=
  match rev with
  | .half hi :: tail =>
    if !braced && hi < 0xDC00 && 0xDC00 ≤ code && code ≤ 0xDFFF then
      .char (Char.ofNat (0x10000 + (hi - 0xD800) * 1024 + (code - 0xDC00))) :: tail
    else Glyph.ofCode code :: rev
  | _ => Glyph.ofCode code :: rev

/-- An octal escape of up to three digits whose value is below 256. -/
def octalEscape (c : Char) (cs : List Char) : Nat × List Char :=
  let isOctal (c : Char) : Bool := '0' ≤ c && c ≤ '7'
  let value (c : Char) : Nat := c.toNat - '0'.toNat
  match cs with
  | d :: e :: rest =>
    if isOctal d then
      if isOctal e && c ≤ '3' then ((value c * 8 + value d) * 8 + value e, rest)
      else (value c * 8 + value d, e :: rest)
    else (value c, cs)
  | [d] => if isOctal d then (value c * 8 + value d, []) else (value c, cs)
  | [] => (value c, [])

/-- The result of an escape in a literal: its glyphs are pushed on what was read, or
it has no value. -/
structure Escape where
  rev : List Glyph
  rest : List Char
  valid : Bool

/-- Reads an escape after its backslash.  A template knows no octal escapes. -/
def readEscape (template : Bool) (rev : List Glyph) : List Char → Escape
  | [] => ⟨rev, [], false⟩
  | c :: cs =>
    let plain (d : Char) : Escape := ⟨.char d :: rev, cs, true⟩
    match c with
    | 'n' => plain '\n'
    | 't' => plain '\t'
    | 'r' => plain '\r'
    | 'b' => plain '\x08'
    | 'f' => plain '\x0c'
    | 'v' => plain '\x0b'
    | '\r' => match cs with
      | '\n' :: rest => ⟨rev, rest, true⟩
      | _ => ⟨rev, cs, true⟩
    | 'x' => match cs with
      | a :: b :: rest => match hexDigit? a, hexDigit? b with
        | some a, some b => ⟨.char (Char.ofNat (a * 16 + b)) :: rev, rest, true⟩
        | _, _ => ⟨rev, cs, false⟩
      | _ => ⟨rev, cs, false⟩
    | 'u' => match unicodeEscape cs with
      | some (code, rest, braced) => ⟨pushCode rev code braced, rest, true⟩
      | none => ⟨rev, cs, false⟩
    | _ =>
      if isLineEnd c then ⟨rev, cs, true⟩
      else if c == '0' && !((cs.head?.map Char.isDigit).getD false) then plain '\x00'
      else if '0' ≤ c && c ≤ '7' then
        if template then ⟨rev, cs, false⟩
        else
          let (value, rest) := octalEscape c cs
          ⟨.char (Char.ofNat value) :: rev, rest, true⟩
      else if template && c.isDigit then ⟨rev, cs, false⟩
      else plain c

/-! ## Literals and names -/

/-- Reads a string literal after its opening quote: its value and the rest. -/
def readString (quote : Char) : Nat → List Glyph → List Char → Option (String × List Char)
  | 0, _, _ => none
  | _ + 1, _, [] => none
  | fuel + 1, rev, c :: cs =>
    if c == quote then some (glyphText rev, cs)
    else if c == '\n' || c == '\r' then none
    else if c == '\\' then
      let e := readEscape false rev cs
      if e.valid then readString quote fuel e.rev e.rest else none
    else readString quote fuel (.char c :: rev) cs

/-- Reads a piece of a template, up to a substitution or the closing backquote: its
value if it has one, whether it is the last piece, and the rest. -/
def readTemplate : Nat → Bool → List Glyph → List Char → Option (Option String × Bool × List Char)
  | 0, _, _, _ => none
  | _ + 1, _, _, [] => none
  | fuel + 1, valid, rev, c :: cs =>
    let value := if valid then some (glyphText rev) else none
    if c == '\x60' then some (value, true, cs)
    else if c == '$' && cs.head? == some '{' then some (value, false, cs.drop 1)
    else if c == '\\' then
      let e := readEscape true rev cs
      readTemplate fuel (valid && e.valid) e.rev e.rest
    else if c == '\r' then
      if cs.head? == some '\n' then readTemplate fuel valid rev cs
      else readTemplate fuel valid (.char '\n' :: rev) cs
    else readTemplate fuel valid (.char c :: rev) cs

/-- Reads a name: its characters last to first, whether it held an escape, and the
rest.  `first` says that a character which starts a name is due. -/
def readName : Nat → Bool → List Char → Bool → List Char → Option (List Char × Bool × List Char)
  | 0, _, _, _, _ => none
  | fuel + 1, first, rev, escaped, cs =>
    let stop := if first then none else some (rev, escaped, cs)
    match cs with
    | '\\' :: 'u' :: tail => match unicodeEscape tail with
      | some (code, rest, _) =>
        let c := Char.ofNat code
        if (if first then isNameStart c else isNamePart c) then
          readName fuel false (c :: rev) true rest
        else none
      | none => none
    | '\\' :: _ => none
    | c :: rest =>
      if (if first then isNameStart c else isNamePart c) then
        readName fuel false (c :: rev) escaped rest
      else stop
    | [] => stop

/-- The value of a digit in `base`. -/
def digitIn? (base : Nat) (c : Char) : Option Nat :=
  (hexDigit? c).filter (· < base)

/-- Reads digits with separators between them: value, count, rest.  A separator
stands between two digits. -/
def readDigits (base : Nat) : List Char → Nat → Nat → Option (Nat × Nat × List Char)
  | c :: cs, value, count =>
    match digitIn? base c with
    | some d => readDigits base cs (value * base + d) (count + 1)
    | none =>
      if c == '_' then
        if count > 0 && (cs.head?.bind (digitIn? base)).isSome then readDigits base cs value count
        else none
      else some (value, count, c :: cs)
  | [], value, count => some (value, count, [])

/-- The exponent of a decimal literal, if one follows. -/
def readExponent : List Char → Option (Int × List Char)
  | c :: cs =>
    if c == 'e' || c == 'E' then
      let (negative, digits) := match cs with
        | '-' :: r => (true, r)
        | '+' :: r => (false, r)
        | r => (false, r)
      match readDigits 10 digits 0 0 with
      | some (value, count, rest) =>
        if count == 0 then none else some (if negative then -(value : Int) else value, rest)
      | none => none
    else some (0, c :: cs)
  | [] => some (0, [])

/-- The fraction and exponent after the whole part `whole` of a decimal literal. -/
def readFraction (whole : Nat) (cs : List Char) : Option (Kind × List Char) :=
  match cs with
  | '.' :: r => do
    let (value, count, rest) ← match r with
      | '_' :: _ => none
      | _ => readDigits 10 r whole 0
    let (exponent, rest) ← readExponent rest
    return (.number ⟨value, exponent - count⟩, rest)
  | _ => do
    let (exponent, rest) ← readExponent cs
    return (.number ⟨whole, exponent⟩, rest)

/-- Digits after a base mark such as `0x`, with an optional suffix `n`. -/
def readBased (base : Nat) (cs : List Char) : Option (Kind × List Char) := do
  let (value, count, rest) ← readDigits base cs 0 0
  if count == 0 then none
  else match rest with
    | 'n' :: rest => some (.bigint value, rest)
    | _ => some (.number ⟨value, 0⟩, rest)

/-- Reads a number literal. -/
def readNumber (cs : List Char) : Option (Kind × List Char) :=
  match cs with
  | '0' :: 'x' :: r => readBased 16 r
  | '0' :: 'X' :: r => readBased 16 r
  | '0' :: 'o' :: r => readBased 8 r
  | '0' :: 'O' :: r => readBased 8 r
  | '0' :: 'b' :: r => readBased 2 r
  | '0' :: 'B' :: r => readBased 2 r
  | '0' :: '_' :: _ => none
  | '0' :: c :: r =>
    if c.isDigit then
      let digits := (c :: r).takeWhile Char.isDigit
      let rest := r.drop (digits.length - 1)
      if digits.all (· < '8') then
        some (.number ⟨digits.foldl (fun n d => n * 8 + (d.toNat - '0'.toNat)) 0, 0⟩, rest)
      else
        readFraction (digits.foldl (fun n d => n * 10 + (d.toNat - '0'.toNat)) 0) rest
    else if c == 'n' then some (.bigint 0, r)
    else readFraction 0 (c :: r)
  | '.' :: _ => readFraction 0 cs
  | _ => do
    let (value, _, rest) ← readDigits 10 cs 0 0
    match rest with
    | 'n' :: rest => some (.bigint value, rest)
    | _ => readFraction value rest

/-! ## Signs -/

/-- Operators and brackets of more than one character, longest first. -/
def longSigns : List (List Char) :=
  ["...", "===", "!==", "**=", "<<=", "&&=", "||=", "??=",
   "=>", "==", "!=", "<=", "&&", "||", "??", "?.", "++", "--", "+=", "-=", "*=", "/=", "%=",
   "&=", "|=", "^=", "<<", "**"].map String.toList

/-- Operators and brackets of one character. -/
def shortSigns : List Char :=
  ['{', '}', '(', ')', '[', ']', ';', ',', '<', '>', '+', '-', '*', '/', '%', '&', '|', '^',
   '!', '~', '?', ':', '=', '.', '@']

/-- Reads an operator or bracket.  `?.` before a digit is a question mark. -/
def readSign (cs : List Char) : Option (String × List Char) :=
  let fits (s : List Char) : Bool :=
    s.isPrefixOf cs && !(s == ['?', '.'] && ((cs.drop 2).head?.map Char.isDigit).getD false)
  match longSigns.find? fits with
  | some s => some (String.ofList s, cs.drop s.length)
  | none => match cs with
    | c :: rest => if shortSigns.contains c then some (c.toString, rest) else none
    | [] => none

/-! ## Tokens -/

/-- Reads the kind of the token at the head of `cs` and what follows it. -/
def readKind (cs : List Char) : Kind × List Char :=
  match cs with
  | [] => (.eof, [])
  | c :: rest =>
    if c == '"' || c == '\'' then
      match readString c (rest.length + 1) [] rest with
      | some (value, rest) => (.string value, rest)
      | none => (.bad, rest)
    else if c == '\x60' then
      match readTemplate (rest.length + 1) true [] rest with
      | some (cooked, last, rest) => (.template cooked last, rest)
      | none => (.bad, rest)
    else if c.isDigit || (c == '.' && (rest.head?.map Char.isDigit).getD false) then
      match readNumber cs with
      | some (kind, after) =>
        match after with
        | d :: _ => if isNamePart d || d == '\\' then (.bad, after) else (kind, after)
        | [] => (kind, after)
      | none => (.bad, rest)
    else if c == '#' then
      match readName (rest.length + 1) true [] false rest with
      | some (rev, _, after) => (.hidden (String.ofList rev.reverse), after)
      | none => (.bad, rest)
    else if isNameStart c || c == '\\' then
      match readName (cs.length + 1) true [] false cs with
      | some (rev, escaped, after) => (.word (String.ofList rev.reverse) escaped, after)
      | none => (.bad, rest)
    else match readSign cs with
      | some (text, after) => (.sign text, after)
      | none => (.bad, rest)

/-- A token with the text from its first character on and the text after it. -/
structure Lexed where
  token : Token
  here : List Char
  rest : List Char

/-- Reads the next token of `cs`, which stands at byte `offset`; `lineHead` when
nothing but blanks stands before it in its line. -/
def next (script lineHead : Bool) (cs : List Char) (offset : Nat) : Lexed :=
  let gap := skipGap script .blank cs offset lineHead
  if gap.closed then
    let (kind, rest) := readKind gap.rest
    ⟨⟨kind, gap.offset, gap.offset + (byteLength gap.rest - byteLength rest), gap.newline⟩,
      gap.rest, rest⟩
  else ⟨⟨.bad, gap.offset, gap.offset, gap.newline⟩, gap.rest, gap.rest⟩

/-- The flags a regular expression may carry. -/
def regexFlags : List Char := ['d', 'g', 'i', 'm', 's', 'u', 'v', 'y']

/-- Reads the body of a regular expression after its opening slash, `inClass`
between brackets: the rest after the closing slash. -/
def skipRegexBody : Bool → List Char → Option (List Char)
  | _, [] => none
  | inClass, c :: cs =>
    if isLineEnd c then none
    else if c == '\\' then match cs with
      | d :: rest => if isLineEnd d then none else skipRegexBody inClass rest
      | [] => none
    else if c == '[' then skipRegexBody true cs
    else if c == ']' then skipRegexBody false cs
    else if c == '/' && !inClass then some cs
    else skipRegexBody inClass cs

/-- Reads a regular expression at its opening slash: the rest after its flags.  A
flag is given once. -/
def skipRegex (cs : List Char) : Option (List Char) := do
  let afterBody ← skipRegexBody false (cs.drop 1)
  let flags := afterBody.takeWhile fun c => c.isAlphanum || c == '_' || c == '$'
  if flags.all regexFlags.contains && flags.eraseDups.length == flags.length then
    some (afterBody.drop flags.length)
  else none

/-- Signs that start with `>` and are read as one only after an operand. -/
def angleSigns : List (List Char) :=
  [">>>=", ">>>", ">>=", ">=", ">>"].map String.toList

/-- The longest operator at a `>`. -/
def readAngle (cs : List Char) : Option (String × List Char) :=
  (angleSigns.find? (·.isPrefixOf cs)).map fun s => (String.ofList s, cs.drop s.length)

end Source
end DependencyUse
