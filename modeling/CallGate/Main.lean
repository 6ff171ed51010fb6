import CallGate.Command.Execution

/-!
# The command-line tool

Reads the file with the settings if one is named, runs the command, prints what it reports, and
ends with its exit code.
-/

namespace CallGate

/-- The reason that the system gives for an error, and its number. -/
def reasonOf : IO.Error → String
  | .otherError code details | .resourceBusy code details | .resourceVanished code details
  | .unsupportedOperation code details | .hardwareFault code details
  | .unsatisfiedConstraints code details | .illegalOperation code details
  | .protocolError code details | .timeExpired code details | .alreadyExists _ code details
  | .interrupted _ code details | .noFileOrDirectory _ code details
  | .invalidArgument _ code details | .permissionDenied _ code details
  | .resourceExhausted _ code details | .inappropriateType _ code details
  | .noSuchThing _ code details =>
    details ++ " (os error " ++ Decimal.text code.toNat ++ ")"
  | .unexpectedEof => "unexpected end of file"
  | .userError message => message

/-- Read the file at a path. -/
def readFile (path : String) : IO Settings.File := do
  try
    let handle ← IO.FS.Handle.mk path .read
    return .contents (← handle.readBinToEnd).toList
  catch error =>
    return .unavailable (reasonOf error)

/-- Run the tool with its arguments. -/
def runTool (arguments : List String) : IO Completion := do
  match Invocation.read arguments with
  | .error stop => return stop.complete
  | .ok invocation =>
    let file ← invocation.settingsPath.mapM readFile
    return invocation.complete (invocation.perform file)

end CallGate

/-- The command-line tool. -/
def main (arguments : List String) : IO UInt32 := do
  let completion ← CallGate.runTool arguments
  (← IO.getStdout).putStr completion.stdout
  (← IO.getStderr).putStr completion.stderr
  return completion.exitCode
