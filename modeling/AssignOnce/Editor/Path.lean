import AssignOnce.Text.Ascii

/-!
# Paths

Paths with slashes, in bytes: a path need not be well-formed text. `Path.clean` gives the shortest
path for the same file: without empty parts, without `.`, and without `..` as far as that can be
resolved.
-/

namespace AssignOnce

namespace Path

open Ascii (byte)

/-- The byte between two parts of a path. -/
def slash : UInt8 := byte '/'

/-- The part that stands for the directory itself. -/
def self : Bytes := [byte '.']

/-- The part that stands for the directory above. -/
def above : Bytes := [byte '.', byte '.']

/-- Whether a path starts at the root. -/
def isRooted (path : Bytes) : Bool :=
  path.head? == some slash

/-- Takes the next part of a path. The parts taken so far are given last first. -/
def push (rooted : Bool) (taken : List Bytes) (part : Bytes) : List Bytes :=
  if part = [] ∨ part = self then taken
  else if part = above then
    match taken with
    | [] => if rooted then [] else [part]
    | last :: before => if last = above then part :: taken else before
  else part :: taken

/-- The parts of a path that are left after cleaning, first to last. -/
def parts (path : Bytes) : List Bytes :=
  ((path.splitOn slash).foldl (push (isRooted path)) []).reverse

/-- The shortest path for the same file. -/
def clean (path : Bytes) : Bytes :=
  let joined := [slash].intercalate (parts path)
  if isRooted path then slash :: joined else if joined = [] then self else joined

/-- The directory of a file. -/
def directory (path : Bytes) : Bytes :=
  clean (path.reverse.dropWhile (· != slash)).reverse

end Path

end AssignOnce
