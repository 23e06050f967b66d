import ScriptAgent.CommandLine

/-!
# The program

Reads the settings from the environment, runs the command line, and writes what is shown. Nothing
answers requests here, so a model is one that needs none.
-/

namespace ScriptAgent.Program

/-- The variables of the environment that hold settings. -/
def readEnvironment : IO (List (String × String)) :=
  Settings.standard.toFields.filterMapM fun (name, _) => do
    return (← IO.getEnv name).map fun value => (name, value)

/-- The terminal that the standard output is. -/
def readTerminal : IO Terminal := do
  return ⟨some (← (← IO.getStdout).isTty), ← IO.getEnv "NO_COLOR"⟩

/-- Writes how the program has ended, and gives its status. -/
def finishProgram (finish : CommandLine.Finish) : IO UInt32 := do
  match finish with
  | .failed _ =>
    IO.eprintln "The program has failed."
    return 1
  | finish =>
    if !finish.errorText.isEmpty then IO.eprintln finish.errorText
    return UInt32.ofNat (finish.status?.getD 0)

end ScriptAgent.Program

open ScriptAgent in
/-- Runs the program. -/
def main (args : List String) : IO UInt32 := do
  match Settings.ofEnvironment (← Program.readEnvironment) with
  | .error _ =>
    IO.eprintln "The settings in the environment are not valid."
    return 1
  | .ok settings =>
    let world := { World.empty with terminal := ← Program.readTerminal }
    let (finish, settings, world) := CommandLine.run CommandLine.standardLoader args settings world
    IO.print (world.transcript "-" (CommandLine.severity settings))
    Program.finishProgram finish
