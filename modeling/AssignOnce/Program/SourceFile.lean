import AssignOnce.Bisection
import AssignOnce.Program.Comment
import AssignOnce.Text.Lines
import AssignOnce.Tree.Basic

/-!
# Source files

A file with its text, its comments, its imports and its tree, at its place among the files of its
package. Lines are those of the text. Indentation is taken from the content that was read for the
file, which may be missing: then a line is taken to be indented with tabs only. Comment groups come
in source order and are searched by halving.

* `SourceFile.leadingComment?`: the comment group on the lines directly above a position;
* `SourceFile.isGenerated`: whether a comment says that the file is generated.
-/

namespace AssignOnce

/-- An import of a file. -/
structure Import where
  /-- The literal with the path, as it stands in the file. -/
  literal : String
  /-- The name given to the import. -/
  name : Option String
  /-- The name of the imported package, if the package was found. -/
  packageName : Option String
  deriving DecidableEq, Repr

/-- A file of a package. -/
structure SourceFile where
  /-- The path of the file. -/
  name : Bytes
  packageName : String
  /-- The position of the first byte. -/
  base : Int
  text : Bytes
  /-- Whether positions of the file can be turned into lines. -/
  located : Bool
  /-- The content read for the file, if it fits the text. -/
  content : Option Bytes
  /-- The position of the package clause. -/
  packagePos : Int
  groups : List CommentGroup
  imports : List Import
  tree : Tree
  deriving Inhabited

namespace SourceFile

variable (f : SourceFile)

/-- The place of a file in its package, from its first byte to the byte after its last one. -/
def bounds : Span := ⟨f.base, f.base + f.text.length⟩

/-- The offset of a position; positions outside the file have the offset of the nearest end. -/
def offset (p : Int) : Nat :=
  min (p - f.base).toNat f.text.length

/-- The line of a position; no position has line 0. -/
def line (p : Int) : Nat :=
  if p = 0 then 0 else Lines.number f.text (f.offset p)

/-- The position at which the line of a position starts. -/
def lineStart (p : Int) : Int :=
  f.base + Lines.start f.text (f.offset p)

/-- The file with the content that was read for it; content of another length is not the file's. -/
def withContent (content : Option Bytes) : SourceFile :=
  { f with content := content.filter (·.length == f.text.length) }

/-- The white space in front of a position on its line. -/
def indent (p : Int) : String :=
  match f.content with
  | none => String.ofList (List.replicate (p - f.lineStart p).toNat '\t')
  | some content =>
    let start := f.offset (f.lineStart p)
    Utf8.toString (Lines.blanks ((content.take (f.offset p)).drop start))

/-- A place in a file as messages give it: file, line, and column in bytes. -/
def location (p : Int) : String :=
  let column := f.offset p - Lines.start f.text (f.offset p) + 1
  let place := toString (f.line p) ++ ":" ++ toString column
  if f.name = [] then place else Utf8.toString f.name ++ ":" ++ place

/-- The number of comment groups that start before a position. -/
def groupsBefore (p : Int) : Nat :=
  bisect (fun g => g.start < p) f.groups 0 f.groups.length

/-- The last comment group that starts before a position. -/
def lastGroupBefore? (p : Int) : Option CommentGroup :=
  match f.groupsBefore p with
  | 0 => none
  | n + 1 => f.groups[n]?

section Search

variable {f : SourceFile} {p : Int} {g : CommentGroup} {front back : List CommentGroup}

/-- If the groups in front of a position come first, the search finds where they end. -/
theorem groupsBefore_eq (hgroups : f.groups = front ++ back) (hfront : ∀ g ∈ front, g.start < p)
    (hback : ∀ g ∈ back, p ≤ g.start) : f.groupsBefore p = front.length := by
  rw [groupsBefore, hgroups]
  refine bisect_append (fun g hg => decide_eq_true (hfront g hg)) (fun g hg => ?_)
    (Nat.zero_le _) (by simp)
  exact decide_eq_false (Int.not_lt.2 (hback g hg))

theorem lastGroupBefore?_eq (hgroups : f.groups = front ++ back)
    (hfront : ∀ g ∈ front, g.start < p) (hback : ∀ g ∈ back, p ≤ g.start) :
    f.lastGroupBefore? p = front.getLast? := by
  unfold lastGroupBefore?
  rw [groupsBefore_eq hgroups hfront hback, List.getLast?_eq_getElem?]
  cases hlength : front.length with
  | zero => rw [List.eq_nil_of_length_eq_zero hlength, List.getElem?_nil]
  | succ n =>
    show f.groups[n]? = front[n]?
    rw [hgroups, List.getElem?_append_left (by omega)]

theorem mem_groups_of_lastGroupBefore? (h : f.lastGroupBefore? p = some g) : g ∈ f.groups := by
  unfold lastGroupBefore? at h
  split at h
  · cases h
  · exact List.mem_of_getElem? h

end Search

/-- The comment group that ends on the line above a position, if it is the last one in front of
the position and starts behind a limit. -/
def leadingComment? (limit p : Int) : Option CommentGroup :=
  match f.lastGroupBefore? p with
  | some g =>
    if g.start ≤ limit ∨ p < g.stop ∨ f.line g.stop + 1 ≠ f.line p then none else some g
  | none => none

/-- A comment group by its place among the comments. -/
def group? (doc : Option Nat) : Option CommentGroup :=
  doc.bind (f.groups[·]?)

/-- Whether a line says that its file is generated. -/
def saysGenerated (line : String) : Bool :=
  let opening := "// Code generated ".toList
  let closing := " DO NOT EDIT.".toList
  opening.isPrefixOf line.toList && closing.isSuffixOf (line.toList.drop opening.length)

/-- Whether a comment in front of the package clause says that the file is generated. -/
def isGenerated : Bool :=
  f.groups.any fun g =>
    (g.comments.takeWhile fun c => c.span.start ≤ f.packagePos).any fun c =>
      (c.text.splitOn "\n").any saysGenerated

/-- A file that is not there: nothing is known of it. -/
def missing : SourceFile where
  name := []
  packageName := ""
  base := 0
  text := []
  located := false
  content := none
  packagePos := 0
  groups := []
  imports := []
  tree := ⟨#[]⟩

end SourceFile

end AssignOnce
