/-
DelegatedEscrow/Main.lean

The command line: prints the guided tour.
-/
import DelegatedEscrow.Walkthrough

def main : IO UInt32 := do
  match DelegatedEscrow.Walkthrough.lines with
  | .ok lines =>
    for line in lines do
      IO.println line
    return 0
  | .error mishap =>
    IO.eprintln mishap.message
    return 1
