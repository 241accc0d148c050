import Styling.Command

/-!
# The program

Runs the command line on the arguments of the process.
-/

def main (arguments : List String) : IO UInt32 := do
  let result := Styling.runProgram arguments
  (← IO.getStdout).putStr result.output
  (← IO.getStderr).putStr result.errors
  match result.fault with
  | some fault => (← IO.getStderr).putStrLn fault.message
  | none => pure ()
  return result.exitCode.toUInt32
