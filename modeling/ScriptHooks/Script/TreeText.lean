/-
ScriptHooks.Script.TreeText — syntax trees as text.

Every node is a form in round brackets: its kind, its position if that matters, and its
parts. Lists stand in square brackets, names are quoted, and a hyphen stands for what is
absent. `Program.text` is the whole tree on one line.

The text is for comparing trees, so that it has all that a tree has, positions included.
-/
import ScriptHooks.Json.Writer
import ScriptHooks.Script.Tree

namespace ScriptHooks.Script

def Position.text (p : Position) : String := toString p.line ++ ":" ++ toString p.column

def VarKind.text : VarKind → String
  | .var => "var"
  | .let_ => "let"
  | .const => "const"

namespace TreeText

def bracketed (parts : List String) : String := "[" ++ " ".intercalate parts ++ "]"

def form (parts : List String) : String := "(" ++ " ".intercalate parts ++ ")"

def label : Option String → String
  | some name => Json.quote name
  | none => "-"

mutual

def ofExpr : Expr → String
  | .ident name p => form ["id", Json.quote name, p.text]
  | .literal => "lit"
  | .template parts => form ["template", bracketed (ofExprs parts)]
  | .array items => form ["array", bracketed (ofExprs items)]
  | .object properties p => form (["object", p.text] ++ ofProperties properties)
  | .function f => ofFunction f
  | .call callee arguments isNew p =>
    form [if isNew then "new" else "call", p.text, ofExpr callee, bracketed (ofExprs arguments)]
  | .member object name => form [".", ofExpr object, Json.quote name]
  | .index object key => form ["index", ofExpr object, ofExpr key]
  | .unary operator operand => form ["unary", Json.quote operator, ofExpr operand]
  | .binary operator left right =>
    form ["binary", Json.quote operator, ofExpr left, ofExpr right]
  | .conditional test consequent alternate =>
    form ["cond", ofExpr test, ofExpr consequent, ofExpr alternate]
  | .sequence items => form ["seq", bracketed (ofExprs items)]
  | .spread operand => form ["spread", ofExpr operand]

def ofExprs : List Expr → List String
  | [] => []
  | e :: es => ofExpr e :: ofExprs es

/-- The form of an expression that may be absent. -/
def ofOption : Option Expr → String
  | some e => ofExpr e
  | none => "-"

/-- A key: its name, or the form of what is computed. -/
def ofKey : PropertyKey → String
  | .named name => Json.quote name
  | .computed key => form ["computed", ofExpr key]

def ofProperty : Property → String
  | .keyValue key value => form ["kv", ofKey key, ofExpr value]
  | .shorthand name p fallback => form ["short", Json.quote name, p.text, ofOption fallback]
  | .method key f => form ["method", ofKey key, ofFunction f]
  | .spread operand => form ["spread", ofExpr operand]

def ofProperties : List Property → List String
  | [] => []
  | p :: ps => ofProperty p :: ofProperties ps

def ofFunction : Function → String
  | .mk name parameters body isArrow p =>
    form [if isArrow then "arrow" else "function", label name, p.text,
      bracketed (ofExprs parameters), bracketed (ofStmts body)]

/-- The form of a declared name or pattern. -/
def ofDeclarator : Declarator → String
  | .mk target init => form ["decl", ofExpr target, ofOption init]

def ofDeclarators : List Declarator → List String
  | [] => []
  | d :: ds => ofDeclarator d :: ofDeclarators ds

def ofHead : ForHead → String
  | .declare kind declarators => form (kind.text :: ofDeclarators declarators)
  | .expr e => ofExpr e

/-- The form of what a loop may start with. -/
def ofHeadOption : Option ForHead → String
  | some head => ofHead head
  | none => "-"

def ofCase : SwitchCase → String
  | .mk (some test) body => form ["case", ofExpr test, bracketed (ofStmts body)]
  | .mk none body => form ["default", bracketed (ofStmts body)]

def ofCases : List SwitchCase → List String
  | [] => []
  | c :: cs => ofCase c :: ofCases cs

def ofHandler : Option CatchClause → List String
  | some (.mk parameter body) => [form ["catch", ofOption parameter, bracketed (ofStmts body)]]
  | none => []

/-- The form of what is done finally, if anything. -/
def ofFinalizer : Option (List Stmt) → List String
  | some body => [form ["finally", bracketed (ofStmts body)]]
  | none => []

/-- The forms of the other branch, if there is one. -/
def ofAlternate : Option Stmt → List String
  | some s => [ofStmt s]
  | none => []

def ofStmt : Stmt → String
  | .declare kind declarators => form (kind.text :: ofDeclarators declarators)
  | .function f => ofFunction f
  | .expr e => form ["expr", ofExpr e]
  | .block body => form ["block", bracketed (ofStmts body)]
  | .if_ test consequent alternate =>
    form (["if", ofExpr test, ofStmt consequent] ++ ofAlternate alternate)
  | .for_ init test update body =>
    form ["for", ofHeadOption init, ofOption test, ofOption update, ofStmt body]
  | .forIn head subject body => form ["forin", ofHead head, ofExpr subject, ofStmt body]
  | .while_ test body p => form ["while", p.text, ofExpr test, ofStmt body]
  | .doWhile body test p => form ["dowhile", p.text, ofStmt body, ofExpr test]
  | .with_ object body p => form ["with", p.text, ofExpr object, ofStmt body]
  | .labeled name body p => form ["label", p.text, Json.quote name, ofStmt body]
  | .break_ name p => form ["break", p.text, label name]
  | .continue_ name p => form ["continue", p.text, label name]
  | .return_ argument => form ["return", ofOption argument]
  | .throw_ argument => form ["throw", ofExpr argument]
  | .try_ block handler finalizer =>
    form (["try", bracketed (ofStmts block)] ++ ofHandler handler ++ ofFinalizer finalizer)
  | .switch discriminant cases => form (["switch", ofExpr discriminant] ++ ofCases cases)
  | .empty => "(empty)"

def ofStmts : List Stmt → List String
  | [] => []
  | s :: ss => ofStmt s :: ofStmts ss

end

end TreeText

def Program.text (program : Program) : String :=
  TreeText.bracketed (TreeText.ofStmts program.body)

end ScriptHooks.Script
