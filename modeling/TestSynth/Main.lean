import TestSynth.CommandLine.Execution
/-!
The program: a project as structured data comes in on standard input, the command line stands in the
arguments, and the answer goes out on standard output.
-/

def main (arguments : List String) : IO UInt32 := do
  let input ← (← IO.getStdin).readToEnd
  match TestSynth.CommandLine.answerText? input arguments with
  | some answer =>
    (← IO.getStdout).putStrLn answer
    return 0
  | none =>
    (← IO.getStderr).putStrLn "no project on standard input"
    return 2
