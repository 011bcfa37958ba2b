/-
# Loading settings

From the lowest to the topmost layer:

1. the settings file that is named, or the first of the usual ones that is there,
2. the environment,
3. the command line.

A named file must be there and in order; one of the usual files that is not in order
sets nothing.  The environment sets nothing if any of its values cannot be read.  Then
the patterns of the ignore file that are not among the others are added, and all is
checked.
-/

import DependencyUse.Settings.Sources

namespace DependencyUse

/-- The layer of a source, or an empty one if the source is not in order. -/
def Layer.orEmpty (source : Except Error Layer) : Layer :=
  match source with
  | .ok l => l
  | .error _ => {}

namespace Settings

/-- The name of the usual settings file. -/
def fileName : String := ".reachability.toml"

/-- The name of the settings file among those of other programs. -/
def sharedName : String := "reachability/config.toml"

/-- Where settings files usually are, in the order in which they are looked for: in the
current directory, in the home directory, and where programs keep their settings.  A
directory that the user does not have is passed over. -/
def usualFiles (d : Disk) : List Path :=
  ⟨fileName⟩ :: (d.home.map fun names => (Disk.absolute names).join ⟨fileName⟩).toList
    ++ (d.configuration.map fun names => (Disk.absolute names).join ⟨sharedName⟩).toList

/-- The layer of the first usual file that is there. -/
def usualLayer (d : Disk) : Layer :=
  match (usualFiles d).find? d.isFile with
  | some file => Layer.orEmpty (Layer.load d file)
  | none => {}

/-- The layer of the settings file. -/
def fileLayer (d : Disk) (named : Option Path) : Except Error Layer :=
  match named with
  | some file => Layer.load d file
  | none => .ok (usualLayer d)

/-- The layer of the environment. -/
def environmentLayer (e : Environment) (start : String) : Layer :=
  Layer.orEmpty (e.layer start)

/-- The settings with further patterns after those that they have. -/
def addPatterns (s : Settings) (patterns : List String) : Settings :=
  { s with ignorePatterns := patterns.foldl (fun done pattern =>
      if done.contains pattern then done else done ++ [pattern]) s.ignorePatterns }

/-- The settings of a layer, with the patterns of the ignore file if it is used. -/
def build (d : Disk) (useIgnoreFile : Bool) (l : Layer) : Except Error Settings := do
  let s := l.settings
  let more ← if useIgnoreFile then IgnoreFile.load d s.sourceDir else .ok []
  let s := s.addPatterns more
  s.check d
  return s

/-- All layers in one, where that of the command line is `top`. -/
def layers (d : Disk) (e : Environment) (start : String) (named : Option Path) (top : Layer) :
    Except Error Layer :=
  (fileLayer d named).map fun file => top.onTopOf ((environmentLayer e start).onTopOf file)

/-- The settings of a command line, whose layer is `top`. -/
def load (d : Disk) (e : Environment) (start : String) (named : Option Path) (useIgnoreFile : Bool)
    (top : Layer) : Except Error Settings :=
  (layers d e start named top).bind (build d useIgnoreFile)

end Settings
end DependencyUse
