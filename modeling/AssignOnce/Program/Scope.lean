import AssignOnce.Tree.Node

/-!
# Scopes

The scopes of a package form a forest: the package scope lies in the scope of the predeclared
names, the file scopes lie in the package scope, and blocks lie in each other.

* `ScopeForest.chain`: a scope and the scopes around it, innermost first;
* `ScopeForest.visibleAround`: whether a name is declared in a scope, around it or below it, so
  that a new declaration of the name there would hide or be hidden;
* `ScopeForest.innermostAt?`: the innermost scope at a position.
-/

namespace AssignOnce

/-- What lies around a scope. -/
inductive Outer where
  | nothing
  /-- The scope of the predeclared names. -/
  | predeclared
  | scope (s : Nat)
  deriving DecidableEq, Repr, Inhabited

/-- A scope with the names it declares. -/
structure Scope where
  outer : Outer
  span : Span
  names : List String
  deriving DecidableEq, Repr, Inhabited

/-- The names that are declared everywhere. -/
def predeclaredNames : List String :=
  ["any", "append", "bool", "byte", "cap", "clear", "close", "comparable", "complex", "complex128",
   "complex64", "copy", "delete", "error", "false", "float32", "float64", "imag", "int", "int16",
   "int32", "int64", "int8", "iota", "len", "make", "max", "min", "new", "nil", "panic", "print",
   "println", "real", "recover", "rune", "string", "true", "uint", "uint16", "uint32", "uint64",
   "uint8", "uintptr"]

/-- The scopes of a package, each behind the one around it. -/
structure ScopeForest where
  scopes : Array Scope
  deriving Inhabited

namespace ScopeForest

variable (f : ScopeForest)

/-- The number of scopes. -/
def size : Nat := f.scopes.size

/-- A scope of the forest; places outside the forest hold an empty scope. -/
def scope (s : Nat) : Scope := f.scopes.getD s default

/-- The places of all scopes. -/
def ids : List Nat := List.range f.size

/-- The scope around a scope. -/
def outer? (s : Nat) : Option Nat :=
  match (f.scope s).outer with
  | .scope o => if o < s then some o else none
  | _ => none

theorem lt_of_outer? {f : ScopeForest} {s o : Nat} (h : f.outer? s = some o) : o < s := by
  unfold outer? at h
  split at h
  · split at h
    · cases h; assumption
    · cases h
  · cases h

/-- A scope and the scopes around it, innermost first. -/
def chain (f : ScopeForest) (s : Nat) : List Nat :=
  match _h : f.outer? s with
  | none => [s]
  | some o => s :: chain f o
termination_by s
decreasing_by exact lt_of_outer? _h

/-- Whether a scope declares a name itself. -/
def declares (s : Nat) (name : String) : Bool :=
  (f.scope s).names.contains name

/-- Whether a scope lies below another one or is it. -/
def within (s root : Nat) : Bool :=
  (f.chain s).contains root

/-- Whether the predeclared names are visible in a scope. -/
def seesPredeclared (s : Nat) : Bool :=
  (f.chain s).any fun o => (f.scope o).outer == .predeclared

/-- Whether a name can be seen from a scope: it is declared there or around it. -/
def visibleIn (s : Nat) (name : String) : Bool :=
  (f.chain s).any (f.declares · name) || f.seesPredeclared s && predeclaredNames.contains name

/-- Whether a name is declared in a scope or below it. -/
def declaredBelow (s : Nat) (name : String) : Bool :=
  f.ids.any fun b => f.within b s && f.declares b name

/-- Whether a name is declared in a scope, around it or below it. -/
def visibleAround (s : Nat) (name : String) : Bool :=
  f.visibleIn s name || f.declaredBelow s name

/-- The scopes directly below a scope, in order. -/
def children (s : Nat) : List Nat :=
  f.ids.filter fun b => f.outer? b == some s

/-- The first scope directly below a scope that contains a position. -/
def childAt? (s : Nat) (p : Int) : Option Nat :=
  (f.children s).find? fun b => (f.scope b).span.contains p

theorem childAt?_bounds {f : ScopeForest} {s b : Nat} {p : Int} (h : f.childAt? s p = some b) :
    s < b ∧ b < f.size := by
  have hb := List.mem_of_find?_eq_some h
  simp only [children, ids, List.mem_filter, List.mem_range, beq_iff_eq] at hb
  exact ⟨lt_of_outer? hb.2, hb.1⟩

/-- The innermost scope at a position, looking from a scope downwards. -/
def descend (f : ScopeForest) (p : Int) (s : Nat) : Nat :=
  match _h : f.childAt? s p with
  | some b => descend f p b
  | none => s
termination_by f.size - s
decreasing_by have := childAt?_bounds _h; omega

/-- The innermost scope at a position. The package scope, which comes first, has no extent of its
own, so the search starts with the file scopes below it. -/
def innermostAt? (p : Int) : Option Nat :=
  (f.childAt? 0 p).map (f.descend p)

/-! ## Scopes around a scope -/

theorem chain_of_outer {f : ScopeForest} {s o : Nat} (h : f.outer? s = some o) :
    f.chain s = s :: f.chain o := by
  rw [chain]
  split <;> simp_all

theorem chain_of_root {f : ScopeForest} {s : Nat} (h : f.outer? s = none) : f.chain s = [s] := by
  rw [chain]
  split <;> simp_all

theorem self_mem_chain (s : Nat) : s ∈ f.chain s := by
  rw [chain]
  split <;> simp

theorem within_iff {f : ScopeForest} {s root : Nat} :
    f.within s root = true ↔ root ∈ f.chain s := by
  simp [within]

end ScopeForest

end AssignOnce
