/-
# The program

The program reads what the command may look at into a disk, runs the command on it, and
does what comes out: it prints, writes at most one file, and ends with the exit code.  If
the command is broken off, it ends with exit code 101.

| read | because |
| --- | --- |
| the current directory | paths start there |
| the settings files | they may set the directory and the components |
| the source directory, the components file, the directory of the output file | they may lie elsewhere |
-/

import DependencyUse.Command.Run

namespace DependencyUse
namespace Program

/-- What a file holds. -/
def contentOf (bytes : ByteArray) : Content :=
  match String.fromUTF8? bytes with
  | some text => .text text
  | none => .binary bytes.toList

/-- Reads a file, or a directory with all that is in it; what cannot be read is no text. -/
partial def readEntry (e : IO.FS.DirEntry) : IO (String × FileTree) :=
  try
    if ← e.path.isDir then
      let entries ← (← e.path.readDir).toList.mapM readEntry
      let tree := entries.foldl (fun (t : FileTree) (name, sub) => t.put [name] sub) (.dir [])
      return (e.fileName, tree)
    else return (e.fileName, .file (contentOf (← IO.FS.readBinFile e.path)))
  catch _ => return (e.fileName, .file (.binary []))

/-- The names that lead to a place. -/
def namesOf (place : String) : List String :=
  (Text.split '/' place).filter fun name => !name.isEmpty

/-- The tree with what is at a path; a path that leads nowhere adds nothing. -/
def mount (tree : FileTree) (path : Path) : IO FileTree :=
  try
    let place ← IO.FS.realPath path.text
    let names := namesOf place.toString
    if ← place.isDir then
      let entries ← (← place.readDir).toList.mapM readEntry
      return entries.foldl (fun t (name, sub) => t.put (names ++ [name]) sub)
        (tree.put names (.dir []))
    else return tree.put names (.file (contentOf (← IO.FS.readBinFile place)))
  catch _ => return tree

/-- The variables that the command may look at. -/
def environment : IO Environment := do
  let names := "NO_COLOR" :: Environment.keys.map (Environment.variableName Environment.usualPrefix)
  let values ← names.mapM fun name => do return (name, ← IO.getEnv name)
  return ⟨values.filterMap fun (name, value) => value.map fun text => (name, text)⟩

/-- The home directory, if one is set. -/
def home? (current : List String) : IO (Option (List String)) := do
  match ← IO.getEnv "HOME" with
  | none | some "" => return none
  | some text => return some (if text.startsWith "/" then namesOf text else current ++ namesOf text)

/-- Where programs keep their settings, if that is set by itself: an absolute path. -/
def configuration? : IO (Option (List String)) := do
  let text := (← IO.getEnv "XDG_CONFIG_HOME").getD ""
  return if text.startsWith "/" then some (namesOf text) else none

/-- The disk of a user, with nothing on it. -/
def bareDisk : IO Disk := do
  let current := namesOf (← IO.currentDir).toString
  let home ← home? current
  match ← configuration? with
  | some names => return { tree := .dir [], current, home, configuration := some names }
  | none => return { tree := .dir [], current, home }

/-- The disk that the command may look at. -/
def disk (e : Environment) (a : Arguments) : IO Disk := do
  let bare ← bareDisk
  let settingsFiles := a.config.toList ++ Settings.usualFiles bare
  let tree ← (⟨"."⟩ :: settingsFiles).foldlM mount (.dir [])
  let d := { bare with tree }
  match Settings.layers d e Environment.usualPrefix a.config a.layer with
  | .error _ => return d
  | .ok l =>
    let named := l.sourceDir.toList ++ l.componentsFile.toList
      ++ (l.outputFile.bind Path.parent?).toList
    let elsewhere := named.filter fun path => !d.exists? path
    return { d with tree := ← elsewhere.foldlM mount tree }

/-- What is said about arguments that cannot be used. -/
def usage : UsageFault → String
  | .unknown => "error: unexpected argument"
  | .badValue => "error: a value is missing or not allowed"
  | .badNumber => "error: a value is not a number"
  | .conflict => "error: an option cannot be used twice or together with another"
  | .unwantedValue => "error: an option takes no value"
  | .help => "Usage: reachability [OPTIONS]"
  | .version => "reachability 0.1.0"

end Program
end DependencyUse

open DependencyUse in
/-- Runs the command. -/
def main (args : List String) : IO UInt32 := do
  match Arguments.read args with
  | .error fault =>
    let stream ← if fault.exitCode = 0 then IO.getStdout else IO.getStderr
    stream.putStrLn (Program.usage fault)
    return fault.exitCode.toUInt32
  | .ok a =>
    let e ← Program.environment
    match Command.run (← IO.monoMsNow) (← Program.disk e a) e a with
    | none =>
      IO.eprintln "the timeout is too long"
      return 101
    | some o =>
      for (path, text) in o.written do
        IO.FS.writeFile path.text text
      IO.print o.stdout
      IO.eprint o.stderr
      return o.exitCode.toUInt32
