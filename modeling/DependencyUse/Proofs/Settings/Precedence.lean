/-
# Which source a setting comes from

Each of the fifteen settings can be set by a settings file, some of them by the environment,
and most of them by the command line.

| source | sets nothing if |
| --- | --- |
| command line | |
| environment | one of its variables cannot be read |
| settings file that is named | (then there are no settings at all) |
| first of the usual settings files that is there | it is not in order |

The usual files are those of the current directory, of the home directory and of the directory
where programs keep their settings.  A user may have neither of the last two, and they are taken
as they are found (`Disk.home`, `Disk.configuration`).

What a source says is told here setting by setting, for the source as it is given: the
arguments, the variables and the table of the file.  A setting has the value of the first
source that sets it, or its default (`load_takes_first_source`); the patterns of the ignore
file come after the patterns that are found so.
-/

import DependencyUse.Command.Arguments
import DependencyUse.Proofs.Settings.Accepted

namespace DependencyUse

/-- A setting, by the kind of its value. -/
inductive Setting : Type → Type where
  | sourceDir : Setting Path
  | componentsFile : Setting Path
  | ignorePatterns : Setting (List String)
  | maxReexportDepth : Setting Nat
  | concurrency : Setting Nat
  | timeout : Setting Nat
  | includeDev : Setting Bool
  | includePeer : Setting Bool
  | includeOptional : Setting Bool
  | outputFormat : Setting OutputFormat
  | outputFile : Setting Path
  | quiet : Setting Bool
  | verbose : Setting Bool
  | useColours : Setting Bool
  | showProgress : Setting Bool

namespace Setting

variable {α : Type}

/-- The value of a setting, if it has one. -/
def value : Setting α → Settings → Option α
  | .sourceDir, s => some s.sourceDir
  | .componentsFile, s => s.componentsFile
  | .ignorePatterns, s => some s.ignorePatterns
  | .maxReexportDepth, s => some s.maxReexportDepth
  | .concurrency, s => some s.concurrency
  | .timeout, s => s.timeout
  | .includeDev, s => some s.includeDev
  | .includePeer, s => some s.includePeer
  | .includeOptional, s => some s.includeOptional
  | .outputFormat, s => some s.outputFormat
  | .outputFile, s => s.outputFile
  | .quiet, s => some s.quiet
  | .verbose, s => some s.verbose
  | .useColours, s => some s.useColours
  | .showProgress, s => some s.showProgress

/-! ### What the sources say -/

/-- What the arguments say.  A flag says something only if it is given. -/
def inArguments : Setting α → Arguments → Option α
  | .sourceDir, a => a.path
  | .componentsFile, a => a.components
  | .ignorePatterns, a => a.ignore
  | .maxReexportDepth, a => a.maxDepth
  | .concurrency, a => a.concurrency
  | .timeout, a => a.timeout
  | .includeDev, a => if a.noDev then some false else none
  | .includePeer, a => if a.noPeer then some false else none
  | .includeOptional, a => if a.noOptional then some false else none
  | .outputFormat, a => a.output
  | .outputFile, a => a.outputFile
  | .quiet, a => if a.quiet then some true else none
  | .verbose, a => if a.verbose then some true else none
  | .useColours, a => if a.noColours then some false else none
  | .showProgress, a => if a.quiet || a.noProgress then some false else none

/-- The key of the variable of a setting, and how its text is read. -/
def reading? : Setting α → Option (String × (String → Option α))
  | .sourceDir => some ("SOURCE_DIR", fun text => some ⟨text⟩)
  | .componentsFile => some ("COMPONENTS", fun text => some ⟨text⟩)
  | .ignorePatterns => some ("IGNORE", fun text => some (Environment.patterns text))
  | .maxReexportDepth => some ("MAX_DEPTH", fun text => Decimal.word? (Text.trim text))
  | .concurrency => some ("CONCURRENCY", fun text => Decimal.word? (Text.trim text))
  | .timeout => some ("TIMEOUT", fun text => Decimal.word? (Text.trim text))
  | .outputFormat => some ("OUTPUT_FORMAT", fun text => Environment.format? (Text.trim text))
  | _ => none

/-- What the variable of a setting says, if it can be read. -/
def inVariable (x : Setting α) (e : Environment) (start : String) : Option α :=
  x.reading?.bind fun (key, read) => (e.get? (Environment.variableName start key)).bind read

/-- The variable of a setting can be read, if it is set. -/
def isReadable (x : Setting α) (e : Environment) (start : String) : Bool :=
  x.reading?.all fun (key, read) =>
    (e.get? (Environment.variableName start key)).all fun text => (read text).isSome

/-- The key of a setting in a settings file. -/
def key : Setting α → String
  | .sourceDir => "source_dir"
  | .componentsFile => "components_file"
  | .ignorePatterns => "ignore_patterns"
  | .maxReexportDepth => "max_reexport_depth"
  | .concurrency => "concurrency"
  | .timeout => "timeout_secs"
  | .includeDev => "include_dev_deps"
  | .includePeer => "include_peer_deps"
  | .includeOptional => "include_optional_deps"
  | .outputFormat => "output_format"
  | .outputFile => "output_file"
  | .quiet => "quiet"
  | .verbose => "verbose"
  | .useColours => "use_colors"
  | .showProgress => "show_progress"

/-- The value of a setting that a value in a settings file stands for, if it is of its kind. -/
def decode : Setting α → Toml.Value → Option α
  | .sourceDir, v => v.path?
  | .componentsFile, v => v.path?
  | .ignorePatterns, v => v.strings?
  | .maxReexportDepth, v => v.word?
  | .concurrency, v => v.word?
  | .timeout, v => v.word?
  | .includeDev, v => v.boolean?
  | .includePeer, v => v.boolean?
  | .includeOptional, v => v.boolean?
  | .outputFormat, v => v.choice?.bind OutputFormat.ofLabel?
  | .outputFile, v => v.path?
  | .quiet, v => v.boolean?
  | .verbose, v => v.boolean?
  | .useColours, v => v.boolean?
  | .showProgress, v => v.boolean?

/-- What a table says. -/
def inTable (x : Setting α) (t : Toml.Table) : Option α :=
  (t.get? x.key).bind x.decode

/-- What the layer of a source says. -/
def inLayer : Setting α → Layer → Option α
  | .sourceDir, l => l.sourceDir
  | .componentsFile, l => l.componentsFile
  | .ignorePatterns, l => l.ignorePatterns
  | .maxReexportDepth, l => l.maxReexportDepth
  | .concurrency, l => l.concurrency
  | .timeout, l => l.timeout
  | .includeDev, l => l.includeDev
  | .includePeer, l => l.includePeer
  | .includeOptional, l => l.includeOptional
  | .outputFormat, l => l.outputFormat
  | .outputFile, l => l.outputFile
  | .quiet, l => l.quiet
  | .verbose, l => l.verbose
  | .useColours, l => l.useColours
  | .showProgress, l => l.showProgress

theorem value_settings (x : Setting α) (l : Layer) :
    x.value l.settings = (x.inLayer l).or (x.value {}) := by
  cases x with
  | componentsFile => exact Option.or_none.symm
  | timeout => exact Option.or_none.symm
  | outputFile => exact Option.or_none.symm
  | _ => exact Option.or_some.symm

theorem inLayer_onTopOf (x : Setting α) (top base : Layer) :
    x.inLayer (top.onTopOf base) = (x.inLayer top).or (x.inLayer base) := by
  cases x <;> rfl

theorem inLayer_arguments (x : Setting α) (a : Arguments) :
    x.inLayer a.layer = x.inArguments a := by
  cases x <;> rfl

theorem inLayer_empty (x : Setting α) : x.inLayer {} = none := by
  cases x <;> rfl

end Setting

/-- The layer that says of each setting what is given for it. -/
def Layer.saying (said : (α : Type) → Setting α → Option α) : Layer where
  sourceDir := said _ .sourceDir
  componentsFile := said _ .componentsFile
  ignorePatterns := said _ .ignorePatterns
  maxReexportDepth := said _ .maxReexportDepth
  concurrency := said _ .concurrency
  timeout := said _ .timeout
  includeDev := said _ .includeDev
  includePeer := said _ .includePeer
  includeOptional := said _ .includeOptional
  outputFormat := said _ .outputFormat
  outputFile := said _ .outputFile
  quiet := said _ .quiet
  verbose := said _ .verbose
  useColours := said _ .useColours
  showProgress := said _ .showProgress

theorem Setting.inLayer_saying {α : Type} (x : Setting α)
    (said : (α : Type) → Setting α → Option α) : x.inLayer (.saying said) = said _ x := by
  cases x <;> rfl

/-! ### The environment -/

namespace Environment

/-- Every variable that is set can be read. -/
def WellFormed (e : Environment) (start : String) : Prop :=
  ∀ (α : Type) (x : Setting α), x.isReadable e start = true

/-- Only numbers and the format may be unreadable. -/
theorem wellFormed_iff {e : Environment} {start : String} :
    e.WellFormed start ↔
      (Setting.maxReexportDepth.isReadable e start && Setting.concurrency.isReadable e start &&
        Setting.timeout.isReadable e start && Setting.outputFormat.isReadable e start) = true := by
  constructor
  · intro h
    simp only [Bool.and_eq_true]
    exact ⟨⟨⟨h _ _, h _ _⟩, h _ _⟩, h _ _⟩
  · intro h α x
    simp only [Bool.and_eq_true] at h
    obtain ⟨⟨⟨hdepth, hconcurrency⟩, htimeout⟩, hformat⟩ := h
    cases x with
    | maxReexportDepth => exact hdepth
    | concurrency => exact hconcurrency
    | timeout => exact htimeout
    | outputFormat => exact hformat
    | _ => simp [Setting.isReadable, Setting.reading?]

instance (e : Environment) (start : String) : Decidable (e.WellFormed start) :=
  decidable_of_iff' _ wellFormed_iff

theorem parsed_eq_ok_iff {α : Type} {e : Environment} {start key : String}
    {decode : String → Option α} {o : Option α} :
    e.parsed start key decode = .ok o ↔
      ((e.get? (variableName start key)).all fun text => (decode (Text.trim text)).isSome) = true ∧
        (e.get? (variableName start key)).bind (fun text => decode (Text.trim text)) = o := by
  unfold parsed
  cases e.get? (variableName start key) with
  | none => simp
  | some raw => cases h : decode (Text.trim raw) <;> simp [h]

/-- **The layer of the environment** is there if every variable can be read, and says what
they say. -/
theorem layer_eq_ok_iff {e : Environment} {start : String} {l : Layer} :
    e.layer start = .ok l ↔
      e.WellFormed start ∧ .saying (fun _ x => x.inVariable e start) = l := by
  simp only [layer, bind_eq_ok_iff, parsed_eq_ok_iff, Option.map_eq_bind]
  constructor
  · rintro ⟨_, ⟨hdepth, rfl⟩, _, ⟨hconcurrency, rfl⟩, _, ⟨htimeout, rfl⟩, _, ⟨hformat, rfl⟩, hl⟩
    refine ⟨wellFormed_iff.2 ?_, Except.ok.inj hl⟩
    simp only [Bool.and_eq_true]
    exact ⟨⟨⟨hdepth, hconcurrency⟩, htimeout⟩, hformat⟩
  · rintro ⟨h, rfl⟩
    exact ⟨_, ⟨h _ .maxReexportDepth, rfl⟩, _, ⟨h _ .concurrency, rfl⟩, _, ⟨h _ .timeout, rfl⟩,
      _, ⟨h _ .outputFormat, rfl⟩, rfl⟩

end Environment

namespace Setting

/-- What the environment says: nothing if one of its variables cannot be read. -/
def inEnvironment {α : Type} (x : Setting α) (e : Environment) (start : String) : Option α :=
  if e.WellFormed start then x.inVariable e start else none

/-- What the first source says that sets the setting: the command line, the environment, the
settings file; and the default if none of them does. -/
def fromFirst {α : Type} (x : Setting α) (a : Arguments) (e : Environment) (start : String)
    (table : Option Toml.Table) : Option α :=
  (x.inArguments a).or ((x.inEnvironment e start).or ((table.bind x.inTable).or (x.value {})))

theorem inLayer_environmentLayer {α : Type} (x : Setting α) (e : Environment) (start : String) :
    x.inLayer (Settings.environmentLayer e start) = x.inEnvironment e start := by
  rw [Settings.environmentLayer, inEnvironment]
  cases hl : e.layer start with
  | ok l =>
    obtain ⟨h, rfl⟩ := Environment.layer_eq_ok_iff.1 hl
    rw [if_pos h, Layer.orEmpty, inLayer_saying]
  | error err =>
    have h : ¬ e.WellFormed start := by
      intro h
      rw [Environment.layer_eq_ok_iff.2 ⟨h, rfl⟩] at hl
      cases hl
    rw [if_neg h, Layer.orEmpty, inLayer_empty]

end Setting

/-! ### Settings files -/

namespace Toml.Table

/-- A table that settings can be taken from. -/
structure IsInOrder (t : Table) : Prop where
  kinds : ∀ (α : Type) (x : Setting α), ∀ v ∈ t.get? x.key, (x.decode v).isSome = true
  sourceDir : Setting.sourceDir.inTable t ≠ some ⟨""⟩
  patterns : ∀ texts ∈ Setting.ignorePatterns.inTable t, ∀ text ∈ texts,
    text ≠ "" ∧ ∃ pattern, Glob.compile text = .ok pattern
  depth : Setting.maxReexportDepth.inTable t ≠ some 0
  concurrency : Setting.concurrency.inTable t ≠ some 0
  outputFile : Setting.outputFile.inTable t ≠ some ⟨""⟩

theorem optional_eq_some_iff {α : Type} {t : Table} {key : String} {decode : Value → Option α}
    {o : Option α} :
    t.optional key decode = some o ↔
      (∀ v ∈ t.get? key, (decode v).isSome = true) ∧ (t.get? key).bind decode = o := by
  unfold optional
  cases t.get? key with
  | none => simp
  | some v => cases h : decode v <;> simp [h]

theorem ofTable?_of_kinds {t : Table}
    (h : ∀ (α : Type) (x : Setting α), ∀ v ∈ t.get? x.key, (x.decode v).isSome = true) :
    Layer.ofTable? t = some (.saying fun _ x => x.inTable t) := by
  have hx : ∀ {α : Type} (x : Setting α), t.optional x.key x.decode = some (x.inTable t) :=
    fun x => optional_eq_some_iff.2 ⟨h _ x, rfl⟩
  rw [Layer.ofTable?]
  refine Option.bind_eq_some_iff.2 ⟨_, hx .sourceDir, ?_⟩
  refine Option.bind_eq_some_iff.2 ⟨_, hx .componentsFile, ?_⟩
  refine Option.bind_eq_some_iff.2 ⟨_, hx .ignorePatterns, ?_⟩
  refine Option.bind_eq_some_iff.2 ⟨_, hx .maxReexportDepth, ?_⟩
  refine Option.bind_eq_some_iff.2 ⟨_, hx .concurrency, ?_⟩
  refine Option.bind_eq_some_iff.2 ⟨_, hx .timeout, ?_⟩
  refine Option.bind_eq_some_iff.2 ⟨_, hx .includeDev, ?_⟩
  refine Option.bind_eq_some_iff.2 ⟨_, hx .includePeer, ?_⟩
  refine Option.bind_eq_some_iff.2 ⟨_, hx .includeOptional, ?_⟩
  refine Option.bind_eq_some_iff.2 ⟨_, hx .outputFormat, ?_⟩
  refine Option.bind_eq_some_iff.2 ⟨_, hx .outputFile, ?_⟩
  refine Option.bind_eq_some_iff.2 ⟨_, hx .quiet, ?_⟩
  refine Option.bind_eq_some_iff.2 ⟨_, hx .verbose, ?_⟩
  refine Option.bind_eq_some_iff.2 ⟨_, hx .useColours, ?_⟩
  exact Option.bind_eq_some_iff.2 ⟨_, hx .showProgress, rfl⟩

theorem kinds_of_ofTable? {t : Table} {l : Layer} (h : Layer.ofTable? t = some l) (α : Type)
    (x : Setting α) : ∀ v ∈ t.get? x.key, (x.decode v).isSome = true := by
  rw [Layer.ofTable?] at h
  obtain ⟨_, hsource, h⟩ := Option.bind_eq_some_iff.1 h
  obtain ⟨_, hcomponents, h⟩ := Option.bind_eq_some_iff.1 h
  obtain ⟨_, hpatterns, h⟩ := Option.bind_eq_some_iff.1 h
  obtain ⟨_, hdepth, h⟩ := Option.bind_eq_some_iff.1 h
  obtain ⟨_, hconcurrency, h⟩ := Option.bind_eq_some_iff.1 h
  obtain ⟨_, htimeout, h⟩ := Option.bind_eq_some_iff.1 h
  obtain ⟨_, hdev, h⟩ := Option.bind_eq_some_iff.1 h
  obtain ⟨_, hpeer, h⟩ := Option.bind_eq_some_iff.1 h
  obtain ⟨_, hoptional, h⟩ := Option.bind_eq_some_iff.1 h
  obtain ⟨_, hformat, h⟩ := Option.bind_eq_some_iff.1 h
  obtain ⟨_, hfile, h⟩ := Option.bind_eq_some_iff.1 h
  obtain ⟨_, hquiet, h⟩ := Option.bind_eq_some_iff.1 h
  obtain ⟨_, hverbose, h⟩ := Option.bind_eq_some_iff.1 h
  obtain ⟨_, hcolours, h⟩ := Option.bind_eq_some_iff.1 h
  obtain ⟨_, hprogress, -⟩ := Option.bind_eq_some_iff.1 h
  cases x <;> exact (optional_eq_some_iff.1 (by assumption)).1

/-- **The layer of a table** is there if every value is of its kind, and then it has what the
table has. -/
theorem ofTable?_eq_some_iff {t : Table} {l : Layer} :
    Layer.ofTable? t = some l ↔
      (∀ (α : Type) (x : Setting α), ∀ v ∈ t.get? x.key, (x.decode v).isSome = true) ∧
        .saying (fun _ x => x.inTable t) = l := by
  constructor
  · intro h
    have hkinds := kinds_of_ofTable? h
    rw [ofTable?_of_kinds hkinds] at h
    exact ⟨hkinds, Option.some.inj h⟩
  · rintro ⟨h, rfl⟩
    exact ofTable?_of_kinds h

end Toml.Table

namespace Layer

theorem checkPattern_eq_ok_iff {file : Path} {text : String} {u : Unit} :
    checkPattern file text = .ok u ↔ text ≠ "" ∧ ∃ pattern, Glob.compile text = .ok pattern := by
  unfold checkPattern
  by_cases h : text = ""
  · simp [h]
  · cases Glob.compile text <;> simp [h]

theorem check_eq_ok_iff {l : Layer} {file : Path} {u : Unit} :
    l.check file = .ok u ↔
      l.sourceDir ≠ some ⟨""⟩ ∧
        (∀ texts ∈ l.ignorePatterns, ∀ text ∈ texts,
          text ≠ "" ∧ ∃ pattern, Glob.compile text = .ok pattern) ∧
        l.maxReexportDepth ≠ some 0 ∧ l.concurrency ≠ some 0 ∧ l.outputFile ≠ some ⟨""⟩ := by
  have hpatterns : (∀ text ∈ l.ignorePatterns.getD [],
      text ≠ "" ∧ ∃ pattern, Glob.compile text = .ok pattern) ↔
      ∀ texts ∈ l.ignorePatterns, ∀ text ∈ texts,
        text ≠ "" ∧ ∃ pattern, Glob.compile text = .ok pattern := by
    cases l.ignorePatterns <;> simp
  simp only [check, bind_eq_ok_iff, forM_eq_ok_iff, demand_eq_ok_iff, checkPattern_eq_ok_iff,
    hpatterns, bne_iff_ne, exists_and_left, exists_const]

theorem read_eq_ok_iff {file : Path} {text : String} {l : Layer} :
    read file text = .ok l ↔
      ∃ t, Toml.Table.read? text = some t ∧ t.IsInOrder ∧
        .saying (fun _ x => x.inTable t) = l := by
  have hread : read file text = .ok l ↔
      (Toml.Table.read? text).bind ofTable? = some l ∧ l.check file = .ok () := by
    unfold read
    cases (Toml.Table.read? text).bind ofTable? with
    | none => simp
    | some l' =>
      simp only [map_eq_ok_iff, Option.some.injEq]
      constructor
      · rintro ⟨⟨⟩, hcheck, rfl⟩
        exact ⟨rfl, hcheck⟩
      · rintro ⟨rfl, hcheck⟩
        exact ⟨(), hcheck, rfl⟩
  simp only [hread, Option.bind_eq_some_iff, Toml.Table.ofTable?_eq_some_iff, check_eq_ok_iff]
  constructor
  · rintro ⟨⟨t, ht, hkinds, rfl⟩, hsource, hpatterns, hdepth, hconcurrency, hfile⟩
    exact ⟨t, ht, ⟨hkinds, hsource, hpatterns, hdepth, hconcurrency, hfile⟩, rfl⟩
  · rintro ⟨t, ht, ⟨hkinds, hsource, hpatterns, hdepth, hconcurrency, hfile⟩, rfl⟩
    exact ⟨⟨t, ht, hkinds, rfl⟩, hsource, hpatterns, hdepth, hconcurrency, hfile⟩

end Layer

namespace Settings

/-- A settings file that is there and holds a table that settings can be taken from. -/
def IsTableOf (t : Toml.Table) (d : Disk) (file : Path) : Prop :=
  d.isFile file = true ∧ t.IsInOrder ∧
    ∃ text, d.readText file = .ok text ∧ Toml.Table.read? text = some t

/-- **A settings file is loaded** if it is there and its table is in order. -/
theorem load_file_eq_ok_iff {d : Disk} {file : Path} {l : Layer} :
    Layer.load d file = .ok l ↔
      ∃ t, IsTableOf t d file ∧ .saying (fun _ x => x.inTable t) = l := by
  unfold Layer.load IsTableOf
  cases d.isFile file with
  | false => simp
  | true =>
    cases d.readText file with
    | error fault => simp
    | ok text =>
      show Layer.read file text = .ok l ↔ _
      rw [Layer.read_eq_ok_iff]
      constructor
      · rintro ⟨t, ht, horder, hl⟩
        exact ⟨t, ⟨rfl, horder, text, rfl, ht⟩, hl⟩
      · rintro ⟨t, ⟨-, horder, text, ⟨⟩, ht⟩, hl⟩
        exact ⟨t, ht, horder, hl⟩

/-- Where the settings file is, and the table that it gives. -/
inductive FileTable (d : Disk) : Option Path → Option Toml.Table → Prop where
  /-- a file that is named must give one -/
  | named {file : Path} {t : Toml.Table} (ht : IsTableOf t d file) :
      FileTable d (some file) (some t)
  /-- else the first of the usual files that is there counts -/
  | usual {file : Path} {t : Toml.Table} (hfirst : (usualFiles d).find? d.isFile = some file)
      (ht : IsTableOf t d file) : FileTable d none (some t)
  /-- and gives nothing if it is not in order -/
  | spoiled {file : Path} (hfirst : (usualFiles d).find? d.isFile = some file)
      (hnone : ∀ t, ¬ IsTableOf t d file) : FileTable d none none
  | absent (hnone : ∀ file ∈ usualFiles d, d.isFile file = false) : FileTable d none none

theorem exists_fileTable {d : Disk} {named : Option Path} {l : Layer}
    (h : fileLayer d named = .ok l) :
    ∃ table, FileTable d named table ∧
      ∀ {α : Type} (x : Setting α), x.inLayer l = table.bind x.inTable := by
  cases named with
  | some file =>
    obtain ⟨t, ht, rfl⟩ := load_file_eq_ok_iff.1 h
    exact ⟨some t, .named ht, fun x => x.inLayer_saying _⟩
  | none =>
    obtain rfl : usualLayer d = l := Except.ok.inj h
    cases hfirst : (usualFiles d).find? d.isFile with
    | none =>
      rw [usualLayer, hfirst]
      exact ⟨none, .absent (by simpa using hfirst), fun x => x.inLayer_empty⟩
    | some file =>
      rw [usualLayer, hfirst]
      cases hload : Layer.load d file with
      | ok l =>
        obtain ⟨t, ht, rfl⟩ := load_file_eq_ok_iff.1 hload
        refine ⟨some t, .usual hfirst ht, fun x => ?_⟩
        simp only [hload, Layer.orEmpty]
        exact x.inLayer_saying _
      | error err =>
        refine ⟨none, .spoiled hfirst fun t ht => ?_, fun x => ?_⟩
        · rw [load_file_eq_ok_iff.2 ⟨t, ht, rfl⟩] at hload
          cases hload
        · simp only [hload, Layer.orEmpty]
          exact x.inLayer_empty

/-! ### Patterns of the ignore file -/

/-- **Patterns are added** after those that are there, unless they are among them, and each
of them once. -/
theorem addPatterns_eq (s : Settings) (more : List String) :
    (s.addPatterns more).ignorePatterns
      = s.ignorePatterns ++ (more.filter fun text => text ∉ s.ignorePatterns).eraseDups := by
  rw [addPatterns]
  generalize s.ignorePatterns = done
  induction more generalizing done with
  | nil => simp
  | cons text more ih =>
    rw [List.foldl_cons, ih]
    by_cases h : text ∈ done
    · simp [h]
    · have hlater : (more.filter fun other => other ∉ done ++ [text])
          = (more.filter fun other => other ∉ done).filter fun other => !other == text := by
        rw [List.filter_filter]
        refine List.filter_congr fun other _ => ?_
        by_cases heq : other = text <;> simp [heq]
      simp only [List.contains_eq_mem, h, decide_false, Bool.false_eq_true, if_false, hlater]
      rw [List.filter_cons_of_pos (by simpa using h), List.eraseDups_cons, List.append_assoc,
        List.singleton_append]

theorem value_addPatterns {α : Type} {x : Setting α} (hx : x.key ≠ Setting.ignorePatterns.key)
    (s : Settings) (more : List String) : x.value (s.addPatterns more) = x.value s := by
  cases x with
  | ignorePatterns => exact absurd rfl hx
  | _ => rfl

/-! ### All sources -/

/-- **A setting comes from the first source that sets it.**  Where settings are loaded at
all, there is the table of the settings file (none if none counts), and each setting has the
value that the command line, else the environment, else the table gives it, or else its
default; after the patterns that are found so come those of the ignore file in the source
directory that is found so, in the order of the file, if they are not there yet and each of
them once. -/
theorem load_takes_first_source {d : Disk} {e : Environment} {start : String} {a : Arguments}
    {s : Settings} (h : load d e start a.config (!a.noIgnoreFile) a.layer = .ok s) :
    ∃ table, FileTable d a.config table ∧
      (∀ {α : Type} (x : Setting α), x.key ≠ Setting.ignorePatterns.key →
        x.value s = x.fromFirst a e start table) ∧
      ∃ base lines, Setting.ignorePatterns.fromFirst a e start table = some base ∧
        (if a.noIgnoreFile then .ok [] else IgnoreFile.load d s.sourceDir) = .ok lines ∧
        s.ignorePatterns = base ++ (lines.filter fun text => text ∉ base).eraseDups := by
  obtain ⟨l, hl, hbuild⟩ := bind_eq_ok_iff.1 h
  obtain ⟨file, hfile, rfl⟩ := map_eq_ok_iff.1 hl
  obtain ⟨table, htable, hsaid⟩ := exists_fileTable hfile
  obtain ⟨lines, hlines, rfl, -⟩ := build_eq_ok_iff.1 hbuild
  -- the layers as they lie over each other, before the ignore file
  have hvalue : ∀ {α : Type} (x : Setting α),
      x.value (a.layer.onTopOf ((environmentLayer e start).onTopOf file)).settings
        = x.fromFirst a e start table := by
    intro α x
    rw [Setting.value_settings, Setting.inLayer_onTopOf, Setting.inLayer_onTopOf,
      Setting.inLayer_arguments, Setting.inLayer_environmentLayer, hsaid, Setting.fromFirst,
      Option.or_assoc, Option.or_assoc]
  refine ⟨table, htable, fun x hx => ?_, _, lines, (hvalue .ignorePatterns).symm, ?_, ?_⟩
  · rw [value_addPatterns hx, hvalue]
  · cases hflag : a.noIgnoreFile <;> rw [hflag] at hlines <;> exact hlines
  · exact addPatterns_eq _ lines

/-- All sources at once: the file sets the source directory, the patterns and the concurrency,
the environment the concurrency and the depth, the command line the timeout; the ignore file
repeats patterns.  The user has no home directory, and the file is where programs keep their
settings. -/
theorem load_takes_first_source_of_all :
    let file : FileTree := .file (.text
      "source_dir = \"src\"\nignore_patterns = [\"gen\"]\nconcurrency = 3\nquiet = true\n")
    let d : Disk :=
      { tree := .dir [("w", .dir [("src", .dir [(".reachabilityignore", .file (.text
          "# no tests\ntest\ngen\ntest\n"))])]),
          ("x", .dir [("reachability", .dir [("config.toml", file)])])]
        current := ["w"]
        configuration := some ["x"] }
    let e : Environment := ⟨[("R_CONCURRENCY", " 4 "), ("R_MAX_DEPTH", "7")]⟩
    let a : Arguments := { timeout := some 9, noColours := true }
    let s : Settings :=
      { sourceDir := ⟨"src"⟩, ignorePatterns := ["gen", "test"], maxReexportDepth := 7,
        concurrency := 4, timeout := some 9, quiet := true, useColours := false }
    load d e "R" a.config (!a.noIgnoreFile) a.layer = .ok s ∧
      ∃ table, FileTable d a.config table ∧
        (∀ {α : Type} (x : Setting α), x.key ≠ Setting.ignorePatterns.key →
          x.value s = x.fromFirst a e "R" table) ∧
        ∃ base lines, Setting.ignorePatterns.fromFirst a e "R" table = some base ∧
          (if a.noIgnoreFile then .ok [] else IgnoreFile.load d s.sourceDir) = .ok lines ∧
          s.ignorePatterns = base ++ (lines.filter fun text => text ∉ base).eraseDups := by
  intro file d e a s
  have h : load d e "R" a.config (!a.noIgnoreFile) a.layer = .ok s := by decide +kernel
  exact ⟨h, load_takes_first_source h⟩

end Settings
end DependencyUse
