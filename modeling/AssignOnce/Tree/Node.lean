import AssignOnce.Tree.Operator

/-!
# Nodes of a syntax tree

A node has a kind with the facts that its kind carries, the field of its parent that holds it, and
a span. Positions are integers that count the bytes of all files of a package, laid out one after
the other; the position `0` is no position. Nodes are named by their place in their tree, objects,
types and scopes by their place in the tables of their package.
-/

namespace AssignOnce

/-- A part of a text, from its first byte to the byte after its last one. -/
structure Span where
  start : Int
  stop : Int
  deriving DecidableEq, Repr, Inhabited

namespace Span

/-- Whether a position lies in a span. -/
def contains (s : Span) (p : Int) : Bool :=
  s.start ≤ p && p < s.stop

end Span

/-- What an identifier declares. -/
inductive Declares where
  /-- The identifier declares nothing. -/
  | nothing
  /-- The identifier declares a name that stands for no object. -/
  | noObject
  | object (o : Nat)
  deriving DecidableEq, Repr

namespace Declares

/-- The object that is declared. -/
def object? : Declares → Option Nat
  | .object o => some o
  | _ => none

end Declares

/-- The kinds of literals. -/
inductive LiteralKind where
  | integer
  | float
  | imaginary
  | character
  | string
  deriving DecidableEq, Repr

/-- The kinds of nodes. A `doc` is the place of the comment group above a declaration. -/
inductive Kind where
  | file (doc : Option Nat)
  | comment
  | commentGroup
  | field
  | fieldList
  | badExpr
  | ident (name : String) (declares : Declares) (uses : Option Nat)
  | ellipsis
  | basicLit (literal : LiteralKind)
  | funcLit
  | compositeLit
  | parenExpr
  | selectorExpr
  | indexExpr
  | indexListExpr
  | sliceExpr
  | typeAssertExpr
  | callExpr
  | starExpr
  | unaryExpr (op : Operator)
  | binaryExpr (op : Operator)
  | keyValueExpr
  | arrayType
  | structType
  | funcType
  | interfaceType
  | mapType
  | chanType
  | badStmt
  | declStmt
  | emptyStmt
  | labeledStmt
  | exprStmt
  | sendStmt
  | incDecStmt (op : Operator)
  | assignStmt (op : Operator) (opPos : Int)
  | goStmt
  | deferStmt
  | returnStmt
  | branchStmt
  | blockStmt (brace : Int)
  | ifStmt
  | caseClause (colon : Int)
  | switchStmt
  | typeSwitchStmt
  | commClause (colon : Int)
  | selectStmt
  | forStmt
  | rangeStmt
  | importSpec
  | valueSpec (doc : Option Nat)
  | typeSpec
  | badDecl
  | genDecl (grouped : Bool) (doc : Option Nat)
  | funcDecl (hasBody : Bool) (doc : Option Nat)
  deriving DecidableEq, Repr, Inhabited

namespace Kind

/-- The name of a kind in reports. -/
def name : Kind → String
  | .file _ => "File"
  | .comment => "Comment"
  | .commentGroup => "CommentGroup"
  | .field => "Field"
  | .fieldList => "FieldList"
  | .badExpr => "BadExpr"
  | .ident .. => "Ident"
  | .ellipsis => "Ellipsis"
  | .basicLit _ => "BasicLit"
  | .funcLit => "FuncLit"
  | .compositeLit => "CompositeLit"
  | .parenExpr => "ParenExpr"
  | .selectorExpr => "SelectorExpr"
  | .indexExpr => "IndexExpr"
  | .indexListExpr => "IndexListExpr"
  | .sliceExpr => "SliceExpr"
  | .typeAssertExpr => "TypeAssertExpr"
  | .callExpr => "CallExpr"
  | .starExpr => "StarExpr"
  | .unaryExpr _ => "UnaryExpr"
  | .binaryExpr _ => "BinaryExpr"
  | .keyValueExpr => "KeyValueExpr"
  | .arrayType => "ArrayType"
  | .structType => "StructType"
  | .funcType => "FuncType"
  | .interfaceType => "InterfaceType"
  | .mapType => "MapType"
  | .chanType => "ChanType"
  | .badStmt => "BadStmt"
  | .declStmt => "DeclStmt"
  | .emptyStmt => "EmptyStmt"
  | .labeledStmt => "LabeledStmt"
  | .exprStmt => "ExprStmt"
  | .sendStmt => "SendStmt"
  | .incDecStmt _ => "IncDecStmt"
  | .assignStmt .. => "AssignStmt"
  | .goStmt => "GoStmt"
  | .deferStmt => "DeferStmt"
  | .returnStmt => "ReturnStmt"
  | .branchStmt => "BranchStmt"
  | .blockStmt _ => "BlockStmt"
  | .ifStmt => "IfStmt"
  | .caseClause _ => "CaseClause"
  | .switchStmt => "SwitchStmt"
  | .typeSwitchStmt => "TypeSwitchStmt"
  | .commClause _ => "CommClause"
  | .selectStmt => "SelectStmt"
  | .forStmt => "ForStmt"
  | .rangeStmt => "RangeStmt"
  | .importSpec => "ImportSpec"
  | .valueSpec _ => "ValueSpec"
  | .typeSpec => "TypeSpec"
  | .badDecl => "BadDecl"
  | .genDecl .. => "GenDecl"
  | .funcDecl .. => "FuncDecl"

/-- Whether a kind is a statement; the clauses of `switch` and `select` are statements too. -/
def isStatement : Kind → Bool
  | .badStmt | .declStmt | .emptyStmt | .labeledStmt | .exprStmt | .sendStmt | .incDecStmt _
  | .assignStmt .. | .goStmt | .deferStmt | .returnStmt | .branchStmt | .blockStmt _ | .ifStmt
  | .caseClause _ | .switchStmt | .typeSwitchStmt | .commClause _ | .selectStmt | .forStmt
  | .rangeStmt => true
  | _ => false

/-- Whether a kind is a function, declared or literal. -/
def isFunction : Kind → Bool
  | .funcDecl .. | .funcLit => true
  | _ => false

/-- Whether a kind is a declared function. -/
def isFunctionDeclaration : Kind → Bool
  | .funcDecl .. => true
  | _ => false

/-- Whether a kind is a function literal. -/
def isFunctionLiteral : Kind → Bool
  | .funcLit => true
  | _ => false

/-- The name of an identifier. -/
def identName? : Kind → Option String
  | .ident name _ _ => some name
  | _ => none

/-- Whether a kind is an identifier. -/
def isIdent (k : Kind) : Bool :=
  k.identName?.isSome

/-- What an identifier declares. -/
def declares : Kind → Declares
  | .ident _ d _ => d
  | _ => .nothing

/-- The object that an identifier refers to. -/
def uses? : Kind → Option Nat
  | .ident _ _ u => u
  | _ => none

end Kind

/-- The fields of a node that hold its children, as far as they tell children apart. -/
inductive Field where
  | args
  | body
  | decls
  | key
  | lhs
  | list
  | name
  | names
  | params
  | post
  | recv
  | rhs
  | sel
  | specs
  | type
  | value
  | x
  | other
  deriving DecidableEq, Repr, Inhabited

/-- A node of a syntax tree. -/
structure Node where
  kind : Kind
  /-- The node above, which comes earlier in the tree. -/
  parent : Option Nat
  /-- The field of the parent that holds the node. -/
  field : Field
  span : Span
  /-- The type recorded for the right side of an assignment. -/
  type : Option Nat
  deriving Repr, Inhabited

end AssignOnce
