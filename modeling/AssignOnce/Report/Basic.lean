import AssignOnce.Analysis.Audit
import AssignOnce.Fix.NewVariable
import AssignOnce.Fix.Permit
import AssignOnce.Report.Rule

/-!
# Reports

A disallowed write is reported with up to two fixes: one that declares a new variable, if its edits
can be made and overlap no edits offered before, and one that permits the write. Nothing is
reported where a comment on the line switches off the tool.
-/

namespace AssignOnce

/-- What is carried from one reported write to the next: the names given out and the edits
offered. -/
structure Reporter where
  namer : Namer
  session : FixSession
  deriving DecidableEq, Repr

namespace Reporter

/-- The reporter before the first write. -/
def ofLimit (limit : Int) : Reporter := ⟨.ofLimit limit, .empty⟩

end Reporter

/-- The fixes for a write, and the failures of the tool met while making them. -/
structure Proposal where
  fixes : List Fix
  failures : List Diagnostic
  deriving DecidableEq, Repr

namespace Source

variable (src : Source)

/-- The fix that permits a write to a variable. -/
def permitFixes (cancelled : Bool) (w : Write) (o : Nat) : List Fix :=
  match src.permit cancelled w.target [src.nameOf o] with
  | .ok insertion => [⟨Fix.permitTitle, [insertion.edit]⟩]
  | .error _ => []

/-- The fixes for a write to a variable. -/
def propose (cancelled : Bool) (r : Reporter) (w : Write) (o : Nat) : Proposal × Reporter :=
  let permits := src.permitFixes cancelled w o
  match src.newVariable cancelled r.namer w with
  | (.ok edits, namer) =>
    let (accepted, session) := r.session.offer edits
    let news := if accepted then [⟨Fix.newVariableTitle, edits⟩] else []
    (⟨news ++ permits, []⟩, ⟨namer, session⟩)
  | (.error (.namesExhausted old tries), namer) =>
    let why := "Can't declare new variable: " ++ (FixError.namesExhausted old tries).message
    (⟨permits, [.internal (src.tree.span w.target) why]⟩, ⟨namer, r.session⟩)
  | (.error _, namer) => (⟨permits, []⟩, ⟨namer, r.session⟩)

/-- What is reported about a write to a variable, with fixes or without. -/
def reportWrite (cancelled withFixes : Bool) (r : Reporter) (w : Write) (o : Nat) :
    List Diagnostic × Reporter :=
  let span := src.tree.span w.target
  if src.file.suppressedAt span.start then ([], r)
  else
    let diagnostic := Rule.reassignment.diagnostic span (src.nameOf o)
    if withFixes then
      let (proposal, r) := src.propose cancelled r w o
      (proposal.failures ++ [{ diagnostic with fixes := proposal.fixes }], r)
    else ([diagnostic], r)

/-- What is reported about some writes to variables, one after the other. -/
def reportWrites (cancelled withFixes : Bool) : Reporter → List (Write × Nat) → List Diagnostic
  | _, [] => []
  | r, (w, o) :: rest =>
    let (diagnostics, r) := src.reportWrite cancelled withFixes r w o
    diagnostics ++ reportWrites cancelled withFixes r rest

/-- The writes that resolve to variables, with the variables. -/
def resolved (ws : List Write) : List (Write × Nat) :=
  ws.filterMap fun w => (src.resolve? w).map fun o => (w, o)

/-- What is reported about an unnecessary directive or entry. -/
def reportFinding (f : Finding) : List Diagnostic :=
  if src.file.suppressedAt f.permission.span.start then []
  else
    match f.entry with
    | some e => [Rule.unnecessaryPermission.diagnostic e.span e.name]
    | none => [Rule.unnecessaryDirective.diagnostic f.permission.span (toolName ++ ":allow")]

end Source

end AssignOnce
