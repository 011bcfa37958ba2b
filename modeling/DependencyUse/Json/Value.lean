/-
# JSON values

A value as its text says it: the fields of an object stay in the order of the text,
repeated names included.  What repetition means is the reader's choice:

| reading | repeated names |
| --- | --- |
| `get?`, `entries` | the last one counts |
| `record?` | refused, if the name is one that is asked for |

`entries` gives the fields by name, in the order of names.
-/

namespace DependencyUse
namespace Json

/-- A number: an integer that a machine word holds, or `mantissa * 10 ^ exponent`. -/
inductive Number where
  | integer (value : Int)
  | decimal (mantissa : Int) (exponent : Int)
deriving DecidableEq, Repr, Inhabited

/-- A JSON value. -/
inductive Value where
  | null
  | bool (value : Bool)
  | number (value : Number)
  | string (value : String)
  | array (items : List Value)
  | object (fields : List (String × Value))
deriving Repr, Inhabited

namespace Value

/-- A natural number. -/
def nat (n : Nat) : Value := .number (.integer n)

/-- A list of texts. -/
def strings (texts : List String) : Value := .array (texts.map .string)

/-- A value or `null`. -/
def optional {α : Type} (encode : α → Value) : Option α → Value
  | some a => encode a
  | none => .null

/-- The last field of a name in an object. -/
def get? (v : Value) (name : String) : Option Value :=
  match v with
  | .object fields => (fields.reverse.find? fun f => f.1 == name).map Prod.snd
  | _ => none

/-- Puts a field at its place among fields in the order of names; it replaces one of
the same name. -/
def placeField (field : String × Value) : List (String × Value) → List (String × Value)
  | [] => [field]
  | f :: fs =>
    if field.1 < f.1 then field :: f :: fs
    else if f.1 < field.1 then f :: placeField field fs
    else field :: fs

/-- The fields of an object in the order of names, the last one of each name. -/
def entries : Value → List (String × Value)
  | .object fields => fields.foldl (fun done f => placeField f done) []
  | _ => []

/-- A text. -/
def string? : Value → Option String
  | .string s => some s
  | _ => none

/-- `true` or `false`. -/
def bool? : Value → Option Bool
  | .bool b => some b
  | _ => none

/-- A natural number below `limit`. -/
def natBelow? (limit : Nat) : Value → Option Nat
  | .number (.integer (.ofNat n)) => if n < limit then some n else none
  | _ => none

/-- A list. -/
def list? {α : Type} (decode : Value → Option α) : Value → Option (List α)
  | .array items => items.mapM decode
  | _ => none

/-- A value that may be `null`. -/
def option? {α : Type} (decode : Value → Option α) : Value → Option (Option α)
  | .null => some none
  | v => (decode v).map some

/-- One of some named alternatives: its name, or an object that gives the name alone
the value `null`. -/
def choice? {α : Type} (ofLabel? : String → Option α) : Value → Option α
  | .string label => ofLabel? label
  | .object [(label, .null)] => ofLabel? label
  | _ => none

end Value

/-- The fields of a record, in the order in which they are declared. -/
structure Record where
  values : List (String × Option Value)
  /-- the record was written as a list of its fields -/
  positional : Bool
deriving Inhabited

/-- Pairs the declared names with the items of a list, which may end early. -/
def pairFields : List String → List Value → Option (List (String × Option Value))
  | names, [] => some (names.map fun name => (name, none))
  | [], _ :: _ => none
  | name :: names, v :: vs => (pairFields names vs).map ((name, some v) :: ·)

/-- The fields of a record that declares `names`.  Other fields are passed over; a
declared field that is there twice is refused, and so are too many items. -/
def Value.record? (names : List String) : Value → Option Record
  | .object fields =>
    if names.all fun name => (fields.filter fun f => f.1 == name).length ≤ 1 then
      some { values := names.map fun name => (name, (fields.find? fun f => f.1 == name).map Prod.snd),
             positional := false }
    else none
  | .array items => (pairFields names items).map fun values => { values, positional := true }
  | _ => none

namespace Record

/-- The value of a declared field. -/
def get? (r : Record) (name : String) : Option Value :=
  ((r.values.find? fun f => f.1 == name).map Prod.snd).join

/-- A field that must be there. -/
def required {α : Type} (r : Record) (name : String) (decode : Value → Option α) : Option α :=
  (r.get? name).bind decode

/-- A field that has a value when it is left out. -/
def withDefault {α : Type} (r : Record) (name : String) (missing : α) (decode : Value → Option α) :
    Option α :=
  match r.get? name with
  | some v => decode v
  | none => some missing

/-- A field that may be `null`; in an object it may also be left out. -/
def nullable {α : Type} (r : Record) (name : String) (decode : Value → Option α) :
    Option (Option α) :=
  match r.get? name with
  | some v => v.option? decode
  | none => if r.positional then none else some none

/-- A field that may be `null` or left out. -/
def optional {α : Type} (r : Record) (name : String) (decode : Value → Option α) :
    Option (Option α) :=
  match r.get? name with
  | some v => v.option? decode
  | none => some none

end Record
end Json
end DependencyUse
