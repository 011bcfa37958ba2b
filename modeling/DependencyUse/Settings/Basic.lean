/-
# Settings

What an analysis depends on, and where the values come from.  A layer sets some of the
settings and leaves the others open; layers lie over each other, and a setting has the
value of the topmost layer that sets it, or its default.

| setting | default |
| --- | --- |
| source directory | `.` |
| components file, output file, timeout | none |
| ignore patterns | none |
| depth of re-exports | 5 |
| concurrency | 10 |
| development, peer and optional dependencies | included |
| format | text |
| quiet, verbose | no |
| colours, progress | yes |
-/

import DependencyUse.Analysis
import DependencyUse.Manifest
import DependencyUse.Report.Format

namespace DependencyUse

/-- All settings. -/
structure Settings where
  sourceDir : Path := ⟨"."⟩
  componentsFile : Option Path := none
  ignorePatterns : List String := []
  maxReexportDepth : Nat := 5
  concurrency : Nat := 10
  /-- seconds after which no more files are read -/
  timeout : Option Nat := none
  includeDev : Bool := true
  includePeer : Bool := true
  includeOptional : Bool := true
  outputFormat : OutputFormat := .text
  outputFile : Option Path := none
  quiet : Bool := false
  verbose : Bool := false
  useColours : Bool := true
  showProgress : Bool := true
deriving DecidableEq, Repr, Inhabited

/-- Some settings. -/
structure Layer where
  sourceDir : Option Path := none
  componentsFile : Option Path := none
  ignorePatterns : Option (List String) := none
  maxReexportDepth : Option Nat := none
  concurrency : Option Nat := none
  timeout : Option Nat := none
  includeDev : Option Bool := none
  includePeer : Option Bool := none
  includeOptional : Option Bool := none
  outputFormat : Option OutputFormat := none
  outputFile : Option Path := none
  quiet : Option Bool := none
  verbose : Option Bool := none
  useColours : Option Bool := none
  showProgress : Option Bool := none
deriving DecidableEq, Repr, Inhabited

namespace Layer

/-- What `top` sets, and where it sets nothing what `base` sets. -/
def onTopOf (top base : Layer) : Layer where
  sourceDir := top.sourceDir.or base.sourceDir
  componentsFile := top.componentsFile.or base.componentsFile
  ignorePatterns := top.ignorePatterns.or base.ignorePatterns
  maxReexportDepth := top.maxReexportDepth.or base.maxReexportDepth
  concurrency := top.concurrency.or base.concurrency
  timeout := top.timeout.or base.timeout
  includeDev := top.includeDev.or base.includeDev
  includePeer := top.includePeer.or base.includePeer
  includeOptional := top.includeOptional.or base.includeOptional
  outputFormat := top.outputFormat.or base.outputFormat
  outputFile := top.outputFile.or base.outputFile
  quiet := top.quiet.or base.quiet
  verbose := top.verbose.or base.verbose
  useColours := top.useColours.or base.useColours
  showProgress := top.showProgress.or base.showProgress

/-- The settings of a layer, with the defaults for what it leaves open. -/
def settings (l : Layer) : Settings where
  sourceDir := l.sourceDir.getD ⟨"."⟩
  componentsFile := l.componentsFile
  ignorePatterns := l.ignorePatterns.getD []
  maxReexportDepth := l.maxReexportDepth.getD 5
  concurrency := l.concurrency.getD 10
  timeout := l.timeout
  includeDev := l.includeDev.getD true
  includePeer := l.includePeer.getD true
  includeOptional := l.includeOptional.getD true
  outputFormat := l.outputFormat.getD .text
  outputFile := l.outputFile
  quiet := l.quiet.getD false
  verbose := l.verbose.getD false
  useColours := l.useColours.getD true
  showProgress := l.showProgress.getD true

end Layer

namespace Settings

/-- How the analysis is done. -/
def options (s : Settings) : Options where
  concurrency := s.concurrency
  maxReexportDepth := s.maxReexportDepth
  ignorePatterns := s.ignorePatterns
  timeout := s.timeout.map (· * 1000)

/-- The tables of the manifest that count. -/
def selection (s : Settings) : Selection where
  development := s.includeDev
  peer := s.includePeer
  optional := s.includeOptional

end Settings
end DependencyUse
