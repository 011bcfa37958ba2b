/-
# Settings as JSON

A layer and the settings have the same names; what a layer leaves open is `null`.
-/

import DependencyUse.Encoding.Import
import DependencyUse.Settings.Basic

namespace DependencyUse

open Json (Value)

/-- A format as its name. -/
def OutputFormat.toJson (f : OutputFormat) : Value :=
  .string f.label

namespace Layer

/-- A layer as a JSON object. -/
def toJson (l : Layer) : Value :=
  .object [("source_dir", .optional Path.toJson l.sourceDir),
    ("components_file", .optional Path.toJson l.componentsFile),
    ("ignore_patterns", .optional .strings l.ignorePatterns),
    ("max_reexport_depth", .optional .nat l.maxReexportDepth),
    ("concurrency", .optional .nat l.concurrency),
    ("timeout_secs", .optional .nat l.timeout),
    ("include_dev_deps", .optional .bool l.includeDev),
    ("include_peer_deps", .optional .bool l.includePeer),
    ("include_optional_deps", .optional .bool l.includeOptional),
    ("output_format", .optional OutputFormat.toJson l.outputFormat),
    ("output_file", .optional Path.toJson l.outputFile),
    ("quiet", .optional .bool l.quiet),
    ("verbose", .optional .bool l.verbose),
    ("use_colors", .optional .bool l.useColours),
    ("show_progress", .optional .bool l.showProgress)]

/-- The names of the settings. -/
def names : List String :=
  ["source_dir", "components_file", "ignore_patterns", "max_reexport_depth", "concurrency",
    "timeout_secs", "include_dev_deps", "include_peer_deps", "include_optional_deps",
    "output_format", "output_file", "quiet", "verbose", "use_colors", "show_progress"]

/-- Reads a layer. -/
def ofJson? (v : Value) : Option Layer := do
  let r ← v.record? names
  let word? := Value.natBelow? (Nat.pow 2 64)
  let sourceDir ← r.nullable "source_dir" Path.ofJson?
  let componentsFile ← r.nullable "components_file" Path.ofJson?
  let ignorePatterns ← r.nullable "ignore_patterns" (Value.list? Value.string?)
  let maxReexportDepth ← r.nullable "max_reexport_depth" word?
  let concurrency ← r.nullable "concurrency" word?
  let timeout ← r.nullable "timeout_secs" word?
  let includeDev ← r.nullable "include_dev_deps" Value.bool?
  let includePeer ← r.nullable "include_peer_deps" Value.bool?
  let includeOptional ← r.nullable "include_optional_deps" Value.bool?
  let outputFormat ← r.nullable "output_format" (Value.choice? OutputFormat.ofLabel?)
  let outputFile ← r.nullable "output_file" Path.ofJson?
  let quiet ← r.nullable "quiet" Value.bool?
  let verbose ← r.nullable "verbose" Value.bool?
  let useColours ← r.nullable "use_colors" Value.bool?
  let showProgress ← r.nullable "show_progress" Value.bool?
  return { sourceDir, componentsFile, ignorePatterns, maxReexportDepth, concurrency, timeout,
           includeDev, includePeer, includeOptional, outputFormat, outputFile, quiet, verbose,
           useColours, showProgress }

end Layer

/-- The settings as a JSON object. -/
def Settings.toJson (s : Settings) : Value :=
  .object [("source_dir", s.sourceDir.toJson),
    ("components_file", .optional Path.toJson s.componentsFile),
    ("ignore_patterns", .strings s.ignorePatterns),
    ("max_reexport_depth", .nat s.maxReexportDepth),
    ("concurrency", .nat s.concurrency),
    ("timeout_secs", .optional .nat s.timeout),
    ("include_dev_deps", .bool s.includeDev),
    ("include_peer_deps", .bool s.includePeer),
    ("include_optional_deps", .bool s.includeOptional),
    ("output_format", s.outputFormat.toJson),
    ("output_file", .optional Path.toJson s.outputFile),
    ("quiet", .bool s.quiet),
    ("verbose", .bool s.verbose),
    ("use_colors", .bool s.useColours),
    ("show_progress", .bool s.showProgress)]

end DependencyUse
