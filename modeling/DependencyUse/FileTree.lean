/-
# File trees

A file tree is a value: a file with its content, or a directory with named trees in
it.  The names of a directory are in increasing order, each once.

| operation | what it does |
| --- | --- |
| `get?` | the tree at the end of some names |
| `put` | a tree at the end of some names, making directories on the way |
| `erase` | the tree without what is at the end of some names |
-/

namespace DependencyUse

/-- What a file holds. -/
inductive Content where
  | text (text : String)
  /-- bytes that are no UTF-8 text -/
  | binary (bytes : List UInt8)
deriving DecidableEq, Repr, Inhabited

/-- A file, or a directory of named trees. -/
inductive FileTree where
  | file (content : Content)
  | dir (entries : List (String × FileTree))
deriving Repr, Inhabited

namespace FileTree

/-- A directory. -/
def isDir : FileTree → Bool
  | .dir _ => true
  | .file _ => false

/-- What a directory holds; a file holds nothing. -/
def entries : FileTree → List (String × FileTree)
  | .dir entries => entries
  | .file _ => []

/-- The tree of a name in a directory. -/
def child? (t : FileTree) (name : String) : Option FileTree :=
  (t.entries.find? fun e => e.1 == name).map Prod.snd

/-- The tree at the end of some names. -/
def get? : FileTree → List String → Option FileTree
  | t, [] => some t
  | t, name :: names => (t.child? name).bind fun c => c.get? names

/-- Puts an entry at its place; it replaces one of the same name. -/
def placeEntry (entry : String × FileTree) : List (String × FileTree) → List (String × FileTree)
  | [] => [entry]
  | e :: es =>
    if entry.1 < e.1 then entry :: e :: es
    else if e.1 < entry.1 then e :: placeEntry entry es
    else entry :: es

/-- The tree with `new` at the end of some names.  Directories are made where there
are none. -/
def put : FileTree → List String → FileTree → FileTree
  | _, [], new => new
  | t, name :: names, new =>
    .dir (placeEntry (name, put ((t.child? name).getD (.dir [])) names new) t.entries)

/-- The tree without what is at the end of some names. -/
def erase : FileTree → List String → FileTree
  | t, [] => t
  | t, [name] => .dir (t.entries.filter fun e => e.1 != name)
  | t, name :: names =>
    match t.child? name with
    | some c => .dir (placeEntry (name, c.erase names) t.entries)
    | none => t

end FileTree
end DependencyUse
