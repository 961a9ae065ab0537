import AssignOnce.Report.Rule

/-!
# The command line

The command `rules` lists all rules and fixes.
-/

/-- Runs the command that the arguments name. -/
def main (args : List String) : IO UInt32 := do
  match args with
  | ["rules"] =>
    IO.print AssignOnce.ruleList
    return 0
  | _ =>
    IO.eprintln "usage: reassignguard rules"
    return 2
