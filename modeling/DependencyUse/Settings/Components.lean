/-
# Where components come from

The components are those of the components file, if one is set, and otherwise those of
the manifest in the source directory.  A components file is JSON: a list of components,
or an object with that list under `components`.  No component has a blank name.
-/

import DependencyUse.Encoding.Component
import DependencyUse.Json.Reader
import DependencyUse.Settings.Basic

namespace DependencyUse
namespace ComponentsFile

open Json (Value)

/-- The components of a JSON value. -/
def ofJson? (v : Value) : Option (List Component) :=
  match v with
  | .array _ => v.list? Component.ofJson?
  | .object _ =>
    (v.record? ["components"]).bind fun r => r.required "components" (Value.list? Component.ofJson?)
  | _ => none

/-- The place of the first component with a blank name. -/
def unnamed? (components : List Component) : Option Nat :=
  components.findIdx? fun c => (Text.trim c.name).isEmpty

/-- Reads the text of a components file. -/
def read (file : Path) (text : String) : Except Error (List Component) :=
  match (Value.read? text).bind ofJson? with
  | none => .error (.componentsFile file "expected a list of components: <json>")
  | some components =>
    match unnamed? components with
    | some i => .error (.componentsFile file ("component #" ++ toString (i + 1) ++ " has an empty name"))
    | none => .ok components

/-- Reads a components file. -/
def load (d : Disk) (file : Path) : Except Error (List Component) :=
  match d.readText file with
  | .ok text => read file text
  | .error fault => .error (.componentsFile file fault.message)

end ComponentsFile

/-- The components that the settings lead to. -/
def Settings.components (s : Settings) (d : Disk) : Except Error (List Component) :=
  match s.componentsFile with
  | some file => ComponentsFile.load d file
  | none => (Manifest.load d s.sourceDir).map fun m => m.components s.selection

end DependencyUse
