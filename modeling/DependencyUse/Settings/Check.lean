/-
# Checking settings

A layer from a file is checked by itself, all settings together against the disk.
The first fault counts.

| order | a layer from a file | all settings |
| --- | --- | --- |
| 1 | the source directory is not empty | the source directory is there |
| 2 | each pattern is not empty and compiles | each pattern compiles |
| 3 | the depth is not 0 | the depth is not 0 |
| 4 | the concurrency is not 0 | the concurrency is not 0 |
| 5 | the output file is not empty | the timeout is not 0 |
| 6 | | it is not both quiet and verbose |
| 7 | | the components file is there |
| 8 | | the directory of the output file is there |
-/

import DependencyUse.Settings.Basic

namespace DependencyUse

/-- Fails with an error if the condition does not hold. -/
def demand (condition : Bool) (e : Error) : Except Error Unit :=
  if condition then .ok () else .error e

namespace Layer

/-- Checks a pattern of a layer. -/
def checkPattern (file : Path) (pattern : String) : Except Error Unit :=
  if pattern.isEmpty then .error (.config ("Empty ignore pattern in config file: " ++ file.text))
  else
    match Glob.compile pattern with
    | .ok _ => .ok ()
    | .error fault =>
      .error (.config ("Invalid ignore pattern '" ++ pattern ++ "' in config file: " ++ file.text
        ++ ": " ++ fault.message))

/-- Checks a layer that comes from a file. -/
def check (l : Layer) (file : Path) : Except Error Unit := do
  demand (l.sourceDir != some ⟨""⟩)
    (.config ("Invalid empty source_dir in config file: " ++ file.text))
  (l.ignorePatterns.getD []).forM (checkPattern file)
  demand (l.maxReexportDepth != some 0)
    (.config ("Invalid max_reexport_depth 0 in config file: " ++ file.text
      ++ ". Must be at least 1."))
  demand (l.concurrency != some 0)
    (.config ("Invalid concurrency 0 in config file: " ++ file.text ++ ". Must be at least 1."))
  demand (l.outputFile != some ⟨""⟩)
    (.config ("Invalid empty output_file in config file: " ++ file.text))

end Layer

namespace Settings

/-- Checks an ignore pattern. -/
def checkPattern (pattern : String) : Except Error Unit :=
  match Glob.compile pattern with
  | .ok _ => .ok ()
  | .error fault => .error (.globPattern fault)

/-- Checks that the components file is there. -/
def checkComponents (d : Disk) (file : Path) : Except Error Unit :=
  demand (d.isFile file) (.componentsFile file "file does not exist")

/-- Checks that the directory of the output file is there; a file without one goes to
the current directory. -/
def checkOutput (d : Disk) (file : Path) : Except Error Unit :=
  match file.parent? with
  | none => .ok ()
  | some parent => demand (parent.text.isEmpty || d.isDir parent) (.outputDirectoryNotFound parent)

/-- Checks the settings against the disk. -/
def check (s : Settings) (d : Disk) : Except Error Unit := do
  demand (d.isDir s.sourceDir) (.invalidPath s.sourceDir)
  s.ignorePatterns.forM checkPattern
  demand (s.maxReexportDepth != 0) (.config "max_reexport_depth must be at least 1")
  demand (s.concurrency != 0) (.config "concurrency must be at least 1")
  demand (s.timeout != some 0) (.config "timeout_secs must be at least 1")
  demand (!(s.quiet && s.verbose)) (.config "quiet and verbose cannot both be set")
  s.componentsFile.toList.forM (checkComponents d)
  s.outputFile.toList.forM (checkOutput d)

end Settings
end DependencyUse
