import AssignOnce.Analysis.Presumption

/-!
# Unnecessary permissions

A directive of a function is necessary as far as it names variables that the body of the function
writes although they are presumed to be assigned once. A directive without any necessary entry is
reported as a whole, otherwise every unnecessary entry is reported by itself. Invalid entries
permit nothing and are not reported.
-/

namespace AssignOnce

/-- An unnecessary directive, or an unnecessary entry of one. -/
structure Finding where
  permission : Permission
  /-- The unnecessary entry; none if the whole directive is unnecessary. -/
  entry : Option Entry
  deriving DecidableEq, Repr

namespace Permission

/-- What is unnecessary in a directive when the given names are written. -/
def findings (p : Permission) (written : List String) : List Finding :=
  let valid := p.entries.filter (·.valid)
  if valid.any fun e => written.contains e.name then
    (valid.filter fun e => !written.contains e.name).map fun e => ⟨p, some e⟩
  else [⟨p, none⟩]

end Permission

namespace Source

variable (src : Source)

/-- The names of the presumed variables that some writes write. -/
def presumedNames (params : Bool) (ws : List Write) : List String :=
  ws.filterMap fun w =>
    match src.resolve? w with
    | some o => if src.presumed params o then some (src.nameOf o) else none
    | none => none

/-- The names of the presumed variables that the body of a function writes. -/
def written (policy : Policy) (f : Nat) : List String :=
  match src.tree.body? f with
  | some b => src.presumedNames policy.params (src.tree.writes policy.outArgs b)
  | none => []

/-- What is unnecessary in the directives of a function. -/
def audit (policy : Policy) (f : Nat) : List Finding :=
  (src.file.permissionsOf f).flatMap (·.findings (src.written policy f))

/-- What is unnecessary in the directives of a function, unless the work is cancelled while the
writes of its body are collected. -/
def auditUnless (cancelled : Bool) (policy : Policy) (f : Nat) : Except Cancelled (List Finding) :=
  if (src.file.permissionsOf f).isEmpty then .ok []
  else
    match src.tree.body? f with
    | none => .ok (src.audit policy f)
    | some b => (src.tree.collect cancelled policy.outArgs b).map fun _ => src.audit policy f

end Source

end AssignOnce
