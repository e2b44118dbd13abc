import OrderBroker.Host

/-!
# The program

Runs the broker with the environment of the process. What there is to say of the run is said on
standard error, and its code is the code of the process.
-/

open OrderBroker in
def main : IO UInt32 := do
  let exit ← Host.run
  (← IO.getStderr).putStr exit.stderr
  return exit.code.toUInt32
