import AssignOnce.Program.Package

/-!
# Packages of a single file

The packages at which statements are tried out have one small file, and their variables are truth
values or integers.
-/

namespace AssignOnce

/-- The types of truth values and of integers. -/
def TypeTable.basic : TypeTable := #[
  ⟨.basic false false none, 0, [.text "bool"], true⟩,
  ⟨.basic false false none, 1, [.text "int"], false⟩]

/-- A package of a single file, which begins with its package clause. -/
def Source.ofFile (text : Bytes) (groups : List CommentGroup) (objects : Array Object)
    (scopes : Array Scope) (nodes : Array Node) : Source where
  package :=
    { path := "example.com/p"
      objects := objects
      types := .basic
      scopes := ⟨scopes⟩ }
  file :=
    { name := Utf8.encode "a.go"
      packageName := "p"
      base := 1
      text := text
      located := true
      content := none
      packagePos := 1
      groups := groups
      imports := []
      tree := ⟨nodes⟩ }

end AssignOnce
