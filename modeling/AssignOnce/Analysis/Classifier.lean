import AssignOnce.Analysis.Audit

/-!
# Classifiers

A classifier answers questions about the variables and functions of one file, in any order and as
often as they are asked. It keeps what it has found: whether a variable is presumed to be assigned
once, and the directives of a function. Functions around a write are asked from the inside out, and
only up to the first that permits the write.
-/

namespace AssignOnce

/-- A classifier of a file, with what it has found so far. -/
structure Classifier where
  source : Source
  /-- Whether parameters and receivers are presumed to be assigned once. -/
  params : Bool
  presumptions : List (Nat × Bool)
  permissions : List (Nat × List Permission)

namespace Classifier

/-- A classifier that has not been asked anything. -/
def ofSource (src : Source) (params : Bool) : Classifier := ⟨src, params, [], []⟩

/-- Whether a variable is presumed to be assigned once. -/
def presumed (c : Classifier) (o : Nat) : Bool × Classifier :=
  match c.presumptions.lookup o with
  | some b => (b, c)
  | none =>
    let b := c.source.presumed c.params o
    (b, { c with presumptions := (o, b) :: c.presumptions })

/-- The directives of a function. -/
def permissionsOf (c : Classifier) (f : Nat) : List Permission × Classifier :=
  match c.permissions.lookup f with
  | some ps => (ps, c)
  | none =>
    let ps := c.source.file.permissionsOf f
    (ps, { c with permissions := (f, ps) :: c.permissions })

/-- Whether one of some functions permits to reassign variables of a name. -/
def permitted (name : String) (c : Classifier) : List Nat → Bool × Classifier
  | [] => (false, c)
  | f :: rest =>
    let (ps, c) := c.permissionsOf f
    if ps.any (·.allows name) then (true, c) else permitted name c rest

/-- Whether a write to a variable at a node is disallowed, unless the work is cancelled before the
first function is asked. -/
def verdict (c : Classifier) (cancelled : Bool) (o node : Nat) :
    Except Cancelled Bool × Classifier :=
  let (presumed, c) := c.presumed o
  let functions := c.source.tree.functionsAround node
  if !presumed then (.ok false, c)
  else if cancelled && !functions.isEmpty then (.error ⟨⟩, c)
  else
    let (permitted, c) := c.permitted (c.source.nameOf o) functions
    (.ok !permitted, c)

/-- The names of the presumed variables that some writes write. -/
def presumedNames (c : Classifier) : List Write → List String × Classifier
  | [] => ([], c)
  | w :: rest =>
    match c.source.resolve? w with
    | none => c.presumedNames rest
    | some o =>
      let (presumed, c') := c.presumed o
      let (names, c') := c'.presumedNames rest
      (if presumed then c.source.nameOf o :: names else names, c')

/-- What is unnecessary in the directives of a function, unless the work is cancelled while the
writes of its body are collected. -/
def audit (c : Classifier) (cancelled outArgs : Bool) (f : Nat) :
    Except Cancelled (List Finding) × Classifier :=
  let (ps, c) := c.permissionsOf f
  if ps.isEmpty then (.ok [], c)
  else
    match c.source.tree.body? f with
    | none => (.ok (ps.flatMap (·.findings [])), c)
    | some b =>
      match c.source.tree.collect cancelled outArgs b with
      | .error e => (.error e, c)
      | .ok ws =>
        let (written, c) := c.presumedNames ws
        (.ok (ps.flatMap (·.findings written)), c)

/-- What a classifier can be asked. -/
inductive Question where
  | presumed (o : Nat)
  | permissions (f : Nat)
  | verdict (cancelled : Bool) (o node : Nat)
  | audit (cancelled outArgs : Bool) (f : Nat)
  deriving DecidableEq, Repr

/-- A classifier after it has been asked something. -/
def after (c : Classifier) : Question → Classifier
  | .presumed o => (c.presumed o).2
  | .permissions f => (c.permissionsOf f).2
  | .verdict cancelled o node => (c.verdict cancelled o node).2
  | .audit cancelled outArgs f => (c.audit cancelled outArgs f).2

/-- A classifier after it has been asked several things, one after the other. -/
def afterAll (c : Classifier) (questions : List Question) : Classifier :=
  questions.foldl after c

end Classifier

end AssignOnce
