/-
# What a command leaves on the disk

A command asks the disk many things and writes at most once, as its last step.

| run | the disk afterwards |
| --- | --- |
| that fails, whatever the reason | as before |
| an analysis without an output file | as before |
| an analysis with an output file | the report is in the file, all else as before |
| `--init` where there is something already | as before |
| `--init` otherwise | the template is in the settings file, all else as before |

The steps are taken one by one: a question leaves the disk as it is (`consult_bind`), and
nothing comes after the one writing (`write_bind`).
-/

import DependencyUse.Command.Run
import DependencyUse.Proofs.Disk

namespace DependencyUse
namespace Command

/-- The work ends as it should, or it fails and leaves the disk as it was. -/
def Work.EndsIn {α : Type} (w : Work α) (d : Disk) (good : α → Disk → Prop) : Prop :=
  match w d with
  | .ok a after => good a after
  | .error _ after => after = d

namespace Work.EndsIn

variable {α β : Type} {d : Disk} {good : β → Disk → Prop}

theorem pure {b : β} (h : good b d) : EndsIn (Pure.pure b) d good := h

/-- Work that starts with a question goes on with the same disk. -/
theorem consult_bind {question : Disk → Except Failure α} {next : α → Work β}
    (h : ∀ answer, question d = .ok answer → (next answer).EndsIn d good) :
    EndsIn (consult question >>= next) d good := by
  show EndsIn (EStateM.bind (consult question) next) d good
  unfold EndsIn EStateM.bind consult
  cases hanswer : question d with
  | error failure => rfl
  | ok answer => exact h answer hanswer

/-- Work that writes a file and then only gives its answer. -/
theorem write_bind {file : Path} {text : String} {error : DiskFault → Error} {b : β}
    (h : ∀ after, d.OnlyWrites after file text → good b after) :
    EndsIn (write file text error >>= fun _ => Pure.pure b) d good := by
  show EndsIn (EStateM.bind (write file text error) fun _ => EStateM.pure b) d good
  unfold EndsIn EStateM.bind write
  cases hafter : d.writeText file text with
  | error fault => rfl
  | ok after => exact h after (Disk.onlyWrites_of_writeText hafter)

end Work.EndsIn

/-- What a run that succeeds may do, and the disk that it may leave. -/
inductive Leaves (now : Nat) (d : Disk) (e : Environment) (a : Arguments) : Effect → Disk → Prop
  /-- the report is shown -/
  | shown {s : Settings} {results : List ComponentResult} (hinit : a.init = false)
      (hsettings : settings d e a = .ok s) (hresults : judge now d s = .ok results)
      (hout : s.outputFile = none) : Leaves now d e a { printed := report e s results } d
  /-- the report is in the output file -/
  | reported {s : Settings} {results : List ComponentResult} {file : Path} {after : Disk}
      (hinit : a.init = false) (hsettings : settings d e a = .ok s)
      (hresults : judge now d s = .ok results) (hout : s.outputFile = some file)
      (honly : d.OnlyWrites after file (report e s results)) :
      Leaves now d e a { written := some (file, report e s results) } after
  /-- there is something where the settings file would be -/
  | present (hinit : a.init = true) (hthere : d.exists? ⟨Settings.fileName⟩ = true) :
      Leaves now d e a { printed := Report.unlines (presentLines ⟨Settings.fileName⟩) } d
  /-- the template is in the settings file, where there was nothing -/
  | created {after : Disk} (hinit : a.init = true)
      (hnothing : d.exists? ⟨Settings.fileName⟩ = false)
      (honly : d.OnlyWrites after ⟨Settings.fileName⟩ Settings.template) :
      Leaves now d e a { printed := Report.unlines (createdLines ⟨Settings.fileName⟩)
                         written := some (⟨Settings.fileName⟩, Settings.template) } after

variable {now : Nat} {d : Disk} {e : Environment} {a : Arguments}

theorem deliver_endsIn {s : Settings} {results : List ComponentResult} (hinit : a.init = false)
    (hsettings : settings d e a = .ok s) (hresults : judge now d s = .ok results) :
    (deliver s (report e s results)).EndsIn d (Leaves now d e a) := by
  unfold deliver
  cases hout : s.outputFile with
  | none => exact .pure (.shown hinit hsettings hresults hout)
  | some file => exact .write_bind fun after => .reported hinit hsettings hresults hout

theorem analyse_endsIn (hinit : a.init = false) :
    (analyse now e a).EndsIn d (Leaves now d e a) := by
  refine .consult_bind fun _ _ => .consult_bind fun s hs => .consult_bind fun results hr => ?_
  exact deliver_endsIn hinit (mapError_eq_ok_iff.1 hs) hr

theorem start_endsIn (hinit : a.init = true) : start.EndsIn d (Leaves now d e a) := by
  unfold start
  refine .consult_bind fun there hthere => ?_
  have hthere : d.exists? ⟨Settings.fileName⟩ = there := Except.ok.inj hthere
  cases there with
  | true =>
    rw [if_pos rfl]
    exact .pure (.present hinit hthere)
  | false =>
    rw [if_neg (by decide)]
    refine Work.EndsIn.write_bind ?_
    intro after honly
    exact Leaves.created hinit hthere honly

/-- **A command touches at most one file.**  Whatever the clock shows, for every disk,
environment and arguments: a run that fails, or is broken off, leaves the disk as it was; an
analysis that succeeds has judged the components on the disk as it was, and leaves it so or
with the report in the output file; and `--init` leaves it so if there is a settings file,
or with the template in one. -/
theorem execute_touches_one_file (now : Nat) (d : Disk) (e : Environment) (a : Arguments) :
    (execute now e a).EndsIn d (Leaves now d e a) := by
  unfold execute
  cases hinit : a.init with
  | true => exact start_endsIn hinit
  | false => exact analyse_endsIn hinit

end Command
end DependencyUse
