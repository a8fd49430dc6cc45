import Formulary.CommandLine.Run

/-! The program: its arguments and its standard input go to the command line. -/
namespace Formulary

def runProgram (arguments : List String) : IO UInt32 := do
  let waits := match CommandLine.Options.ofArguments arguments with
    | .ok options => options.expression.isNone
    | .error _ => false
  let input ← if waits then (← IO.getStdin).readToEnd else pure ""
  let printed := CommandLine.run arguments input
  (← IO.getStdout).putStr printed.output
  (← IO.getStderr).putStr printed.errors
  return printed.code.toUInt32

end Formulary

def main (arguments : List String) : IO UInt32 := Formulary.runProgram arguments
