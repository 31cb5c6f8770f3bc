/-
ScriptHooks.Sandbox.Syntax — scripts as trees that can be run.

Unlike the tree of `Script.Tree`, which keeps what validation looks at, this one
keeps everything that a run needs: the values of literals, the kinds of
assignment, and for each block the names that it declares.

The two trees come from two readings of the same text. Validation refuses what
scripts may not contain and reports issues at places; reading for a run refuses
what is no program at all, and keeps no places but those of functions, whose text
scripts may ask for. A script is kept only when both accept it.

A block carries its declared names and its functions apart from its statements,
because both exist before the first statement runs. A function carries a header
with what its call has to prepare: its parameters, the names declared with `var`
anywhere inside, and whether `arguments` is spoken of.
-/
import ScriptHooks.Sandbox.Units

namespace ScriptHooks.Sandbox

abbrev Name := Units

/-- How variables are declared. -/
inductive DeclarationKind
  | var
  | let_
  | const
  deriving DecidableEq

/-- Operators before an operand. -/
inductive UnaryOp
  | plus | minus | not | bitNot | void
  deriving DecidableEq

/-- Operators between operands, both of which are evaluated. -/
inductive BinaryOp
  | add | sub | mul | div | mod | pow
  | shiftLeft | shiftRight | shiftRightZero
  | less | lessEqual | greater | greaterEqual
  | equal | notEqual | same | notSame
  | bitAnd | bitOr | bitXor
  | in_ | instanceOf
  deriving DecidableEq

/-- Operators that evaluate their second operand only if the first does not decide. -/
inductive LogicOp
  | and | or | coalesce
  deriving DecidableEq

/-- The kinds of function. -/
inductive FunctionKind
  | normal
  | arrow
  | method
  | getter
  | setter
  deriving DecidableEq

/-- A name declared in a block, and whether it is a constant. -/
structure LexicalName where
  name : Name
  constant : Bool

/-- What a function is besides its parameters and body. -/
structure FunctionHeader where
  kind : FunctionKind
  /-- Its own name; empty if it has none. -/
  name : Name
  /-- The name is in scope in the function itself. -/
  bindsName : Bool
  /-- The number of parameters before the first with a default. -/
  arity : Nat
  /-- The names of the parameters. -/
  parameters : List Name
  /-- The names declared with `var`, and those of the functions of the body. -/
  vars : List Name
  usesArguments : Bool
  /-- Where its text starts, and how many characters it has. -/
  textStart : List Char
  textLength : Nat

/-- The kinds of entry of an object literal or pattern. -/
inductive EntryKind
  | field
  | method
  | getter
  | setter
  /-- The entry that names the prototype. -/
  | proto
  /-- The entries of another object, or the rest in a pattern. -/
  | spread
  deriving DecidableEq

/-- What the parts of a `try` statement are. -/
structure TryShape where
  catches : Bool
  /-- The names of the pattern of the handler, if it has one. -/
  pattern : Option (List LexicalName)
  finishes : Bool

mutual

/-- Expressions. Patterns are expressions too: names and places, array and object
literals of patterns, and an assignment for a pattern with a default. -/
inductive Expr
  | undefined
  | null
  | bool (value : Bool)
  | number (value : Float)
  | bigint (value : Int)
  | text (value : Units)
  | regex (source flags : Units)
  | this
  | newTarget
  | ident (name : Name)
  /-- Texts and expressions in turn. -/
  | template (parts : List Expr)
  /-- A missing item of an array. -/
  | hole
  /-- Items taken from a list, or the rest in a pattern. -/
  | spread (items : Expr)
  | array (items : List Expr)
  | object (entries : List Entry)
  | function (code : Code)
  | unary (op : UnaryOp) (operand : Expr)
  | typeof (operand : Expr)
  | delete (operand : Expr)
  | update (increment before : Bool) (target : Expr)
  | binary (op : BinaryOp) (left right : Expr)
  | logic (op : LogicOp) (left right : Expr)
  | conditional (test yes no : Expr)
  | assign (target value : Expr)
  | compound (op : BinaryOp) (target value : Expr)
  | logicAssign (op : LogicOp) (target value : Expr)
  | call (callee : Expr) (arguments : List Expr) (optional : Bool)
  | new (callee : Expr) (arguments : List Expr)
  | member (object : Expr) (name : Name) (optional : Bool)
  | index (object key : Expr) (optional : Bool)
  /-- The end of a chain with `?.`, which may be cut short. -/
  | chain (inner : Expr)
  | sequence (first second : Expr)

/-- An entry of an object literal or pattern. -/
inductive Entry
  | mk (kind : EntryKind) (key value : Expr)

/-- A function: its parameters and its body. -/
inductive Code
  | mk (header : FunctionHeader) (parameters : List Expr) (body : Block)

/-- A block: the names it declares, the functions that exist from its beginning, and
its statements. -/
inductive Block
  | mk (names : List LexicalName) (functions : List Code) (body : List Stmt)

/-- A case of a `switch`; the default has no test. -/
inductive Case
  | mk (isDefault : Bool) (test : Expr) (body : List Stmt)

/-- Statements. -/
inductive Stmt
  | empty
  | expr (expr : Expr)
  /-- Declared patterns, assignments where there is a value. -/
  | declare (kind : DeclarationKind) (targets : List Expr)
  | block (block : Block)
  | if_ (test : Expr) (yes no : Stmt)
  | for_ (names : List LexicalName) (start : Stmt) (test step : Expr) (body : Stmt)
  | forIn (names : List LexicalName) (kind : Option DeclarationKind) (target subject : Expr)
      (body : Stmt)
  | forOf (names : List LexicalName) (kind : Option DeclarationKind) (target subject : Expr)
      (body : Stmt)
  | while_ (test : Expr) (body : Stmt)
  | doWhile (body : Stmt) (test : Expr)
  | return_ (value : Expr)
  | throw_ (value : Expr)
  | try_ (shape : TryShape) (body : Block) (pattern : Expr) (handler finisher : Block)
  | switch (subject : Expr) (names : List LexicalName) (functions : List Code)
      (cases : List Case)
  | break_ (label : Option Name)
  | continue_ (label : Option Name)
  | labeled (label : Name) (body : Stmt)

end

instance : Inhabited Expr := ⟨.null⟩
instance : Inhabited Stmt := ⟨.empty⟩
instance : Inhabited Block := ⟨.mk [] [] []⟩

/-- A program: the names that it declares with `var`, and its block. -/
structure Program where
  vars : List Name
  block : Block

def Code.header : Code → FunctionHeader
  | .mk header _ _ => header

end ScriptHooks.Sandbox
