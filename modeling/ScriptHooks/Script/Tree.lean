/-
ScriptHooks.Script.Tree — the syntax tree of a script.

The tree keeps what the symbol builder and the construct checks need: scopes,
calls, object literals and the positions of names. Literals keep no value, and
operators are their source text. Binding patterns are expressions that stand in
a binding place.

Expressions, statements and what stands in them (properties, functions,
declarators, heads, cases, handlers) are one mutual type, since a function is an
expression and has statements in it.

A `Branch` is an expression or a statement, the two kinds of nodes that count for
the depth of a tree. `Branch.children` lists what stands directly under a node,
through whatever is no node of its own: the body of a function stands under the
expression or statement that it is, the value of a property under the object.

The names that a pattern binds are those in its binding places (`namesBound`), and
the dotted name of an expression is the path of properties from a name on.
-/
import ScriptHooks.Script.Issue

namespace ScriptHooks.Script

/-- The keyword of a variable statement. -/
inductive VarKind
  | var
  | let_
  | const
  deriving Repr, DecidableEq

mutual

/-- Expressions, and binding patterns. -/
inductive Expr
  | ident (name : String) (position : Position)
  /-- A number, text, regular expression, truth value, `null` or `this`. -/
  | literal
  | template (parts : List Expr)
  | array (items : List Expr)
  | object (properties : List Property) (position : Position)
  | function (function : Function)
  | call (callee : Expr) (arguments : List Expr) (isNew : Bool) (position : Position)
  | member (object : Expr) (property : String)
  | index (object : Expr) (property : Expr)
  | unary (operator : String) (operand : Expr)
  | binary (operator : String) (left : Expr) (right : Expr)
  | conditional (test : Expr) (consequent : Expr) (alternate : Expr)
  | sequence (items : List Expr)
  | spread (operand : Expr)

/-- What stands between the braces of an object. -/
inductive Property
  | keyValue (key : PropertyKey) (value : Expr)
  /-- A bare name; inside a pattern it may have a default. -/
  | shorthand (name : String) (position : Position) (fallback : Option Expr)
  | method (key : PropertyKey) (function : Function)
  | spread (operand : Expr)

/-- The key of a property: a name, or an expression. -/
inductive PropertyKey
  | named (name : String)
  | computed (key : Expr)

/-- A function of any form. An arrow whose body is an expression has a body that
returns it. -/
inductive Function
  | mk (name : Option String) (parameters : List Expr) (body : List Stmt) (isArrow : Bool)
      (position : Position)

/-- One variable of a variable statement: its pattern and initial value. -/
inductive Declarator
  | mk (target : Expr) (init : Option Expr)

/-- What a `for` statement starts with. -/
inductive ForHead
  | declare (kind : VarKind) (declarators : List Declarator)
  | expr (expr : Expr)

/-- A case of a `switch`; the default has no test. -/
inductive SwitchCase
  | mk (test : Option Expr) (body : List Stmt)

/-- The handler of a `try`. -/
inductive CatchClause
  | mk (parameter : Option Expr) (body : List Stmt)

/-- Statements. -/
inductive Stmt
  | declare (kind : VarKind) (declarators : List Declarator)
  | function (function : Function)
  | expr (expr : Expr)
  | block (body : List Stmt)
  | if_ (test : Expr) (consequent : Stmt) (alternate : Option Stmt)
  | for_ (init : Option ForHead) (test : Option Expr) (update : Option Expr) (body : Stmt)
  /-- A loop over keys or items. -/
  | forIn (head : ForHead) (subject : Expr) (body : Stmt)
  | while_ (test : Expr) (body : Stmt) (position : Position)
  | doWhile (body : Stmt) (test : Expr) (position : Position)
  | with_ (object : Expr) (body : Stmt) (position : Position)
  | labeled (label : String) (body : Stmt) (position : Position)
  | break_ (label : Option String) (position : Position)
  | continue_ (label : Option String) (position : Position)
  | return_ (argument : Option Expr)
  | throw_ (argument : Expr)
  | try_ (block : List Stmt) (handler : Option CatchClause) (finalizer : Option (List Stmt))
  | switch (discriminant : Expr) (cases : List SwitchCase)
  | empty

end

instance : Inhabited Expr := ⟨.literal⟩
instance : Inhabited Stmt := ⟨.empty⟩

/-- The statements of a script. -/
structure Program where
  body : List Stmt

/-- The dotted text of a chain of plain names; nothing for anything else. -/
def Expr.dottedName : Expr → Option String
  | .ident name _ => some name
  | .member inner property => inner.dottedName.map (· ++ "." ++ property)
  | _ => none

mutual

/-- The names that a pattern binds, in order. -/
def Expr.namesBound : Expr → List String
  | .ident name _ => [name]
  | .array items => boundNamesOfAll items
  | .object properties _ => boundNamesOfProperties properties
  | .spread operand => operand.namesBound
  | .binary operator left _ => if operator = "=" then left.namesBound else []
  | _ => []

def boundNamesOfAll : List Expr → List String
  | [] => []
  | item :: items => item.namesBound ++ boundNamesOfAll items

/-- The names that the properties of an object pattern bind. A method binds none. -/
def boundNamesOfProperties : List Property → List String
  | [] => []
  | property :: properties => property.namesBound ++ boundNamesOfProperties properties

/-- The names that one property of an object pattern binds. -/
def Property.namesBound : Property → List String
  | .keyValue _ value => value.namesBound
  | .shorthand name _ _ => [name]
  | .spread operand => operand.namesBound
  | .method _ _ => []

end

/-! ## Nodes -/

/-- A node of the tree, of either kind. -/
inductive Branch
  | expr (expr : Expr)
  | stmt (stmt : Stmt)

namespace Branch

def ofKey : PropertyKey → List Branch
  | .named _ => []
  | .computed key => [.expr key]

def ofFunction : Function → List Branch
  | .mk _ parameters body _ _ => parameters.map .expr ++ body.map .stmt

def ofProperty : Property → List Branch
  | .keyValue key value => ofKey key ++ [.expr value]
  | .shorthand _ _ fallback => fallback.toList.map .expr
  | .method key function => ofKey key ++ ofFunction function
  | .spread operand => [.expr operand]

def ofDeclarator : Declarator → List Branch
  | .mk target init => .expr target :: init.toList.map .expr

def ofHead : ForHead → List Branch
  | .declare _ declarators => declarators.flatMap ofDeclarator
  | .expr e => [.expr e]

def ofCase : SwitchCase → List Branch
  | .mk test body => test.toList.map .expr ++ body.map .stmt

def ofCatch : CatchClause → List Branch
  | .mk parameter body => parameter.toList.map .expr ++ body.map .stmt

def ofExpr : Expr → List Branch
  | .ident _ _ => []
  | .literal => []
  | .template parts => parts.map .expr
  | .array items => items.map .expr
  | .object properties _ => properties.flatMap ofProperty
  | .function function => ofFunction function
  | .call callee arguments _ _ => .expr callee :: arguments.map .expr
  | .member object _ => [.expr object]
  | .index object property => [.expr object, .expr property]
  | .unary _ operand => [.expr operand]
  | .binary _ left right => [.expr left, .expr right]
  | .conditional test consequent alternate => [.expr test, .expr consequent, .expr alternate]
  | .sequence items => items.map .expr
  | .spread operand => [.expr operand]

/-- What stands directly under a statement, in the order of the source. -/
def ofStmt : Stmt → List Branch
  | .declare _ declarators => declarators.flatMap ofDeclarator
  | .function function => ofFunction function
  | .expr e => [.expr e]
  | .block body => body.map .stmt
  | .if_ test consequent alternate =>
    .expr test :: .stmt consequent :: alternate.toList.map .stmt
  | .for_ init test update body =>
    init.toList.flatMap ofHead ++ test.toList.map .expr ++ update.toList.map .expr ++ [.stmt body]
  | .forIn head subject body => ofHead head ++ [.expr subject, .stmt body]
  | .while_ test body _ => [.expr test, .stmt body]
  | .doWhile body test _ => [.stmt body, .expr test]
  | .with_ object body _ => [.expr object, .stmt body]
  | .labeled _ body _ => [.stmt body]
  | .break_ _ _ => []
  | .continue_ _ _ => []
  | .return_ argument => argument.toList.map .expr
  | .throw_ argument => [.expr argument]
  | .try_ block handler finalizer =>
    block.map .stmt ++ handler.toList.flatMap ofCatch ++ (finalizer.getD []).map .stmt
  | .switch discriminant cases => .expr discriminant :: cases.flatMap ofCase
  | .empty => []

def children : Branch → List Branch
  | .expr e => ofExpr e
  | .stmt s => ofStmt s

end Branch

end ScriptHooks.Script
