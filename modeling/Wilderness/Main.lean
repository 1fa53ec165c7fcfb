import Wilderness.Command.Response

/-!
# The program

Prints the answer to its arguments.
-/

/-- Eight random bytes as a number. -/
def Wilderness.Command.entropy : IO UInt64 := do
  let bytes ← IO.getRandomBytes 8
  return bytes.foldl (fun seed byte => seed * 256 + byte.toUInt64) 0

open Wilderness in
/-- The program: what it prints and how it ends is `Command.run`. -/
def main (arguments : List String) : IO UInt32 := do
  let response := Command.run arguments (← Command.entropy)
  (← IO.getStdout).putStr response.output
  (← IO.getStderr).putStr response.errors
  return response.exit.toUInt32
