import AssignOnce.Analysis.Write

/-!
# Why a fix cannot be made
-/

namespace AssignOnce

/-- Why a type cannot be spelled in a file. -/
inductive Unspellable where
  /-- The type needs a package that the file does not import. -/
  | notImported (path : String)
  /-- The type, spelled so, has a part that cannot be named in the file. -/
  | inaccessible (spelling : String)
  deriving DecidableEq, Repr

/-- Why a fix cannot be made. -/
inductive FixError where
  /-- All candidates for the name of a new variable are taken. -/
  | namesExhausted (old : String) (tries : Nat)
  /-- No function or scope lies around the place. -/
  | noFunction (subject : String)
  | unspellable (reason : Unspellable)
  /-- A declaration is needed where none can stand. -/
  | needsDeclaration (name : String)
  /-- A reference to the new variable would lie outside its scope. -/
  | escapesScope (name place : String)
  /-- The target of the write is no variable; its name is missing if it is no identifier. -/
  | unresolved (name : Option String)
  | cancelled
  deriving DecidableEq, Repr

namespace FixError

/-- What is said of a fix that cannot be made. -/
def message : FixError → String
  | .namesExhausted old tries =>
    "unique name search exhausted: " ++ old ++ " after " ++ toString tries ++ " tries"
  | .noFunction subject => "no enclosing function: " ++ subject
  | .unspellable (.notImported path) => "type can't be spelled: package " ++ path ++ " not imported"
  | .unspellable (.inaccessible spelling) => "type can't be spelled: " ++ spelling
  | .needsDeclaration name => "typed declaration not possible: " ++ name
  | .escapesScope name place =>
    "reference outside of new variable scope: " ++ name ++ " at " ++ place
  | .unresolved none => "unresolved variable"
  | .unresolved (some name) => "unresolved variable: " ++ name
  | .cancelled => (⟨⟩ : Cancelled).message

end FixError

end AssignOnce
