/-
# Markup elements

An element is read character by character, because its text is no sequence of
tokens: `<p>it's // text</p>` holds neither a string nor a comment.  Expressions in
braces are read by the grammar, and reading goes on after their closing brace.

| name of an element | refers to a value |
| --- | --- |
| `<Foo>`, `<_x>`, `<$x>`, a letter beyond ASCII | yes |
| `<foo>`, `<my-foo>`, `<a:b>`, `<this.x>` | no |
| `<foo.bar>` | its root `foo` |

A reader of an element ends on the `>` that closes it, which is not consumed: only
the reader around it knows whether text or a token follows.
-/

import DependencyUse.Source.Grammar.Types

namespace DependencyUse
namespace Source
namespace Grammar

open Reader
open Text (isNameStart isNamePart)

/-- A place in the text between tokens. -/
structure Place where
  text : List Char
  offset : Nat

/-- The place after the first `n` characters. -/
def Place.skip (p : Place) (n : Nat) : Place :=
  ⟨p.text.drop n, p.offset + byteLength (p.text.take n)⟩

/-- The place after blanks and comments. -/
def Place.pastGap (p : Place) : Reader Place := do
  let gap := skipGap false .blank p.text p.offset false
  if gap.closed then return ⟨gap.rest, gap.offset⟩ else reject

/-- The place after the due token. -/
def placeAfter : Reader Place := return ⟨(← get).rest, (← token).stop⟩

/-- The place after the character `c`, which is due. -/
def Place.expect (p : Place) (c : Char) : Reader Place :=
  if p.text.head? == some c then return p.skip 1 else reject

/-- A name in markup, which may hold dashes. -/
def markupName (p : Place) : Reader (String × Place) := do
  match p.text with
  | c :: _ =>
    unless isNameStart c do reject
    let name := p.text.takeWhile fun d => isNamePart d || d == '-'
    return (String.ofList name, p.skip name.length)
  | [] => reject

/-- A tag name: its text, and the value it refers to. -/
structure Tag where
  text : String
  parts : List Part

/-- The value that an undotted tag name refers to. -/
def tagReference (name : String) : List Part :=
  match name.toList with
  | c :: _ =>
    if ('a' ≤ c && c ≤ 'z') || name.contains '-' then [] else [.expr (.name name)]
  | [] => []

/-- Reads a tag name. -/
def tagName (p : Place) : Reader (Tag × Place) := do
  let (root, p) ← markupName p
  let q ← p.pastGap
  match q.text with
  | ':' :: _ =>
    let (name, p) ← markupName (← (q.skip 1).pastGap)
    return (⟨root ++ ":" ++ name, []⟩, p)
  | '.' :: _ =>
    flagIf (root.contains '-')
    let parts := if root == "this" then [.expr .this] else [.expr (.name root)]
    loop (root, q) fun (text, q) => do
      match q.text with
      | '.' :: _ =>
        let (name, p) ← markupName (← (q.skip 1).pastGap)
        flagIf (name.contains '-')
        return .inl (text ++ "." ++ name, ← p.pastGap)
      | _ => return .inr (⟨text, parts⟩, q)
  | _ => return (⟨root, tagReference root⟩, p)

/-- The expression in braces, from after the opening brace to after the closing one. -/
def bracedExpression (self : Rules) (p : Place) : Reader (List Part × Place) := do
  jump p.text p.offset
  let e ← nested self.assignment
  unless ← atSign "\x7d" do reject
  return ([e.part], ← placeAfter)

/-- The expression after `{...`. -/
def spreadExpression (self : Rules) (p : Place) : Reader (List Part × Place) := do
  let p ← p.expect '.'
  let p ← p.expect '.'
  let p ← p.expect '.'
  bracedExpression self p

/-- An element that starts at `p`, and the place after it. -/
def nestedMarkup (self : Rules) (p : Place) : Reader (List Part × Place) := do
  jump p.text p.offset
  let e ← self.markup
  return ([.expr e], ← placeAfter)

/-- The value of an attribute after `=`. -/
def attributeValue (self : Rules) (p : Place) : Reader (List Part × Place) := do
  match p.text with
  | '{' :: _ => bracedExpression self (p.skip 1)
  | '<' :: _ => nestedMarkup self p
  | c :: rest =>
    unless c == '"' || c == '\'' do reject
    let body := rest.takeWhile (· != c)
    let p := p.skip (body.length + 1)
    return ([], ← p.expect c)
  | [] => reject

/-- The attributes of a tag up to `/` or `>`. -/
def attributes (self : Rules) (p : Place) : Reader (List Part × Place) :=
  loop (([] : List Part), p) fun (parts, p) => do
    let p ← p.pastGap
    match p.text with
    | '>' :: _ => return .inr (parts, p)
    | '/' :: _ => return .inr (parts, p)
    | '{' :: _ =>
      let (e, p) ← spreadExpression self (← (p.skip 1).pastGap)
      return .inl (parts ++ e, p)
    | _ =>
      let (_, p) ← markupName p
      let q ← p.pastGap
      let p ← match q.text with
        | ':' :: _ => do
          let (_, p) ← markupName (← (q.skip 1).pastGap)
          p.pastGap
        | _ => pure q
      match p.text with
      | '=' :: _ =>
        let (value, p) ← attributeValue self (← (p.skip 1).pastGap)
        return .inl (parts ++ value, p)
      | _ => return .inl (parts, p)

/-- The content of an element up to its closing tag: its parts and the place after
`</`. -/
def children (self : Rules) (p : Place) : Reader (List Part × Place) :=
  loop (([] : List Part), p) fun (parts, p) => do
    let text := p.text.takeWhile fun c => !(['{', '}', '<', '>'].contains c)
    let p := p.skip text.length
    match p.text with
    | '{' :: _ =>
      let p ← (p.skip 1).pastGap
      match p.text with
      | '}' :: _ => return .inl (parts, p.skip 1)
      | '.' :: '.' :: _ =>
        let (e, p) ← spreadExpression self p
        return .inl (parts ++ e, p)
      | _ =>
        let (e, p) ← bracedExpression self p
        return .inl (parts ++ e, p)
    | '<' :: _ =>
      let q ← (p.skip 1).pastGap
      match q.text with
      | '/' :: _ => return .inr (parts, q.skip 1)
      | _ =>
        let (e, p) ← nestedMarkup self p
        return .inl (parts ++ e, p)
    | _ => reject

/-- Makes the `>` at `p` the due token. -/
def endOn (p : Place) : Reader Unit := do
  let after ← p.expect '>'
  modify fun c =>
    { c with token := ⟨.sign ">", p.offset, after.offset, false⟩, here := p.text, rest := after.text }

/-- Type arguments of a tag, if types are known and they are due. -/
def tagTypes (self : Rules) (p : Place) : Reader (List Part × Place) := do
  let q ← p.pastGap
  if (← read).typescript && q.text.head? == some '<' then
    jump q.text q.offset
    let args ← typeArguments self
    return ([.types args], ⟨(← get).here, (← token).start⟩)
  return ([], p)

/-- An element or fragment from its `<` on, up to the `>` that closes it. -/
def markup (self : Rules) : Reader Expr := do
  unless (← read).markup && (← get).here.head? == some '<' do reject
  let p ← Place.pastGap ⟨(← get).here.drop 1, (← token).start + 1⟩
  match p.text with
  | '>' :: _ =>
    let (parts, p) ← children self (p.skip 1)
    endOn (← p.pastGap)
    return .other parts
  | _ =>
    let (tag, p) ← tagName p
    let (types, p) ← tagTypes self p
    let (given, p) ← attributes self p
    let head := tag.parts ++ types ++ given
    match p.text with
    | '/' :: _ =>
      endOn (← (p.skip 1).pastGap)
      return .other head
    | _ =>
      let (parts, p) ← children self (← p.expect '>')
      let (closing, p) ← tagName (← p.pastGap)
      unless closing.text == tag.text do reject
      endOn (← p.pastGap)
      return .other (head ++ parts)

end Grammar
end Source
end DependencyUse
