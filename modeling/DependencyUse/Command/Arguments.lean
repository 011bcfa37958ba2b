/-
# Arguments of the command

An argument is an option or the value of the option before it.

| argument | meaning |
| --- | --- |
| `--name`, `-n` | an option; the next argument is its value if it takes one |
| `--name=value` | an option with its value |
| `-abc` | the options `-a`, `-b` and `-c`; the first that takes a value takes the rest |
| `-n=value` | a short option with its value |
| `--` | no options follow |

Nothing else is allowed.  The first fault counts, with two exceptions: a value in an
argument of its own is looked at only when the next option is taken, or at the end, and
that two options exclude each other shows at the very end.
-/

import DependencyUse.Settings.Sources

namespace DependencyUse

/-- An option without a value. -/
inductive Switch where
  | quiet
  | verbose
  | noDev
  | noPeer
  | noOptional
  | noIgnoreFile
  | noColours
  | noProgress
  | init
  | help
  | version
deriving DecidableEq, Repr, Inhabited

/-- An option with a value. -/
inductive Valued where
  | path
  | components
  | ignore
  | maxDepth
  | concurrency
  | timeout
  | output
  | outputFile
  | config
deriving DecidableEq, Repr, Inhabited

/-- An option. -/
inductive CommandOption where
  | switch (s : Switch)
  | valued (v : Valued)
deriving DecidableEq, Repr, Inhabited

namespace CommandOption

/-- The option of a long name. -/
def ofLong? : String → Option CommandOption
  | "path" => some (.valued .path)
  | "components" => some (.valued .components)
  | "ignore" => some (.valued .ignore)
  | "max-depth" => some (.valued .maxDepth)
  | "concurrency" => some (.valued .concurrency)
  | "timeout" => some (.valued .timeout)
  | "output" => some (.valued .output)
  | "output-file" => some (.valued .outputFile)
  | "config" => some (.valued .config)
  | "quiet" => some (.switch .quiet)
  | "verbose" => some (.switch .verbose)
  | "no-dev-deps" => some (.switch .noDev)
  | "no-peer-deps" => some (.switch .noPeer)
  | "no-optional-deps" => some (.switch .noOptional)
  | "no-ignore-file" => some (.switch .noIgnoreFile)
  | "no-colors" => some (.switch .noColours)
  | "no-progress" => some (.switch .noProgress)
  | "init" => some (.switch .init)
  | "help" => some (.switch .help)
  | "version" => some (.switch .version)
  | _ => none

/-- The option of a letter. -/
def ofShort? : Char → Option CommandOption
  | 'p' => some (.valued .path)
  | 'i' => some (.valued .ignore)
  | 'o' => some (.valued .output)
  | 'c' => some (.valued .config)
  | 'q' => some (.switch .quiet)
  | 'v' => some (.switch .verbose)
  | 'h' => some (.switch .help)
  | 'V' => some (.switch .version)
  | _ => none

end CommandOption

/-- Why arguments cannot be used; asking for help or the version also ends the run. -/
inductive UsageFault where
  /-- an option that is not known, or a text that belongs to no option -/
  | unknown
  /-- a value that is missing, or not one of those that are allowed -/
  | badValue
  /-- a value that is no number -/
  | badNumber
  /-- an option that is there twice, or two that exclude each other -/
  | conflict
  /-- a value for an option that takes none -/
  | unwantedValue
  | help
  | version
deriving DecidableEq, Repr, Inhabited

/-- The exit code of a run that ends with the fault. -/
def UsageFault.exitCode : UsageFault → Nat
  | .help | .version => 0
  | _ => 2

/-- What the arguments say. -/
structure Arguments where
  path : Option Path := none
  components : Option Path := none
  ignore : Option (List String) := none
  maxDepth : Option Nat := none
  concurrency : Option Nat := none
  timeout : Option Nat := none
  output : Option OutputFormat := none
  outputFile : Option Path := none
  config : Option Path := none
  quiet : Bool := false
  verbose : Bool := false
  noDev : Bool := false
  noPeer : Bool := false
  noOptional : Bool := false
  noIgnoreFile : Bool := false
  noColours : Bool := false
  noProgress : Bool := false
  init : Bool := false
deriving DecidableEq, Repr, Inhabited

namespace Arguments

/-! ### Settings -/

/-- A flag that sets a setting if it is there. -/
def whenGiven (given value : Bool) : Option Bool :=
  if given then some value else none

/-- The layer of the arguments. -/
def layer (a : Arguments) : Layer where
  sourceDir := a.path
  componentsFile := a.components
  ignorePatterns := a.ignore
  maxReexportDepth := a.maxDepth
  concurrency := a.concurrency
  timeout := a.timeout
  includeDev := whenGiven a.noDev false
  includePeer := whenGiven a.noPeer false
  includeOptional := whenGiven a.noOptional false
  outputFormat := a.output
  outputFile := a.outputFile
  quiet := whenGiven a.quiet true
  verbose := whenGiven a.verbose true
  useColours := whenGiven a.noColours false
  showProgress := whenGiven (a.quiet || a.noProgress) false

/-! ### Reading -/

/-- Gives an option its only value. -/
def once {α : Type} (old : Option α) (new : Except UsageFault α) : Except UsageFault (Option α) :=
  if old.isSome then .error .conflict else new.map some

/-- A path, which is not empty. -/
def pathValue (text : String) : Except UsageFault Path :=
  if text.isEmpty then .error .badValue else .ok ⟨text⟩

/-- A natural number of 64 bits. -/
def wordValue (text : String) : Except UsageFault Nat :=
  match Decimal.word? text with
  | some n => .ok n
  | none => .error .badNumber

/-- A format. -/
def formatValue (text : String) : Except UsageFault OutputFormat :=
  match OutputFormat.ofLabel? text with
  | some f => .ok f
  | none => .error .badValue

/-- Takes an option with its value. -/
def setValue (a : Arguments) (text : String) : Valued → Except UsageFault Arguments
  | .path => (once a.path (pathValue text)).map ({ a with path := · })
  | .components => (once a.components (pathValue text)).map ({ a with components := · })
  | .ignore => .ok { a with ignore := some (a.ignore.getD [] ++ [text]) }
  | .maxDepth => (once a.maxDepth (wordValue text)).map ({ a with maxDepth := · })
  | .concurrency => (once a.concurrency (wordValue text)).map ({ a with concurrency := · })
  | .timeout => (once a.timeout (wordValue text)).map ({ a with timeout := · })
  | .output => (once a.output (formatValue text)).map ({ a with output := · })
  | .outputFile => (once a.outputFile (pathValue text)).map ({ a with outputFile := · })
  | .config => (once a.config (pathValue text)).map ({ a with config := · })

/-- A flag that was not set before. -/
def unset (old : Bool) (new : Arguments) : Except UsageFault Arguments :=
  if old then .error .conflict else .ok new

/-- Takes an option without a value. -/
def setSwitch (a : Arguments) : Switch → Except UsageFault Arguments
  | .quiet => unset a.quiet { a with quiet := true }
  | .verbose => unset a.verbose { a with verbose := true }
  | .noDev => unset a.noDev { a with noDev := true }
  | .noPeer => unset a.noPeer { a with noPeer := true }
  | .noOptional => unset a.noOptional { a with noOptional := true }
  | .noIgnoreFile => unset a.noIgnoreFile { a with noIgnoreFile := true }
  | .noColours => unset a.noColours { a with noColours := true }
  | .noProgress => unset a.noProgress { a with noProgress := true }
  | .init => unset a.init { a with init := true }
  | .help => .error .help
  | .version => .error .version

/-- What was read of the arguments: what they say, an option that waits for its value
or for its value to be looked at, and whether options are over. -/
structure Scan where
  said : Arguments := {}
  pending : Option (Valued × Option String) := none
  optionsOver : Bool := false
deriving Inhabited

namespace Scan

/-- Looks at the value of the option that waits for it. -/
def settle (s : Scan) : Except UsageFault Scan :=
  match s.pending with
  | none => .ok s
  | some (_, none) => .error .badValue
  | some (option, some text) =>
    (s.said.setValue text option).map fun said => { s with said, pending := none }

/-- Takes an option without a value. -/
def switch (s : Scan) (w : Switch) : Except UsageFault Scan := do
  let s ← s.settle
  return { s with said := ← s.said.setSwitch w }

/-- Takes an option whose value, if it is not given with it, comes next. -/
def valued (s : Scan) (v : Valued) (text : Option String) : Except UsageFault Scan := do
  let s ← s.settle
  match text with
  | some text => return { s with said := ← s.said.setValue text v }
  | none => return { s with pending := some (v, none) }

/-- A long option without its dashes, and its value if there is an equals sign. -/
def long (s : Scan) (cs : List Char) : Except UsageFault Scan :=
  let name := String.ofList (cs.takeWhile (· ≠ '='))
  let text? := match cs.dropWhile (· ≠ '=') with
    | [] => none
    | _ :: text => some (String.ofList text)
  match CommandOption.ofLong? name, text? with
  | none, _ => .error .unknown
  | some (.switch _), some _ => .error .unwantedValue
  | some (.switch w), none => s.switch w
  | some (.valued v), _ => s.valued v text?

/-- The value that follows the letter of an option in the same argument. -/
def attached? : List Char → Option String
  | [] => none
  | '=' :: cs => some (String.ofList cs)
  | cs => some (String.ofList cs)

/-- Short options without their dash. -/
def short (s : Scan) : List Char → Except UsageFault Scan
  | [] => .ok s
  | c :: cs =>
    match CommandOption.ofShort? c with
    | none => .error .unknown
    | some (.switch w) => (s.switch w).bind fun s => s.short cs
    | some (.valued v) => s.valued v (attached? cs)

/-- A text that is no option: the value of the option before it. -/
def plain (s : Scan) (text : String) : Except UsageFault Scan :=
  match s.pending with
  | some (v, none) => .ok { s with pending := some (v, some text) }
  | _ => .error .unknown

/-- One argument. -/
def step (s : Scan) (text : String) : Except UsageFault Scan :=
  if s.optionsOver then .error .unknown
  else
    match text.toList with
    | ['-', '-'] => .ok { s with optionsOver := true }
    | '-' :: '-' :: cs => s.long cs
    | ['-'] => s.plain text
    | '-' :: cs => s.short cs
    | _ => s.plain text

end Scan

/-- What some arguments say. -/
def read (texts : List String) : Except UsageFault Arguments := do
  let s ← texts.foldlM Scan.step {}
  let s ← s.settle
  if s.said.quiet && s.said.verbose then .error .conflict else .ok s.said

end Arguments
end DependencyUse
