/-
ScriptHooks.Script.Symbols — who declares and who uses the names of a script.

The symbol tree has a node for every function, object literal and call, nested as
in the source and in its order. Names are declared by functions and by the root.
A use of a name belongs to the innermost function around it that declares the
name, and to the root if none does.

Declarations are found first, function by function: the parameters, the names of
declarations and functions anywhere in the body that are not in a function inside,
whether in a block or not.

The tree is gathered from below: a `Harvest` is what a piece of the source
contributes to whatever encloses it: symbols, uses of names, disallowed constructs. A
function keeps the uses of the names it declares and passes the others on (`close`),
and wraps its symbols into one of its own (`wrap`).

Patterns contribute in their own way (`harvestPattern`): the names in binding places
are no uses, while default values and computed keys are walked like expressions.

The same walk finds the constructs that could stall the host: `while` and
`do … while` loops, `with`, labels and jumps to labels. `Program.violations` has them
as issues, in the order of the walk.
-/
import ScriptHooks.Script.Tree

namespace ScriptHooks.Script

/-- What a symbol node stands for. -/
inductive SymbolKind
  | root
  | function
  | object
  | call
  deriving Repr, DecidableEq

def SymbolKind.name : SymbolKind → String
  | root => "root"
  | function => "function"
  | object => "object"
  | call => "call"

/-- A function, object literal or call, or the root. Only functions and the root
have declarations and references. -/
inductive SymbolNode
  | mk (kind : SymbolKind) (name : Option String) (line : Nat) (declarations : List String)
      (references : List String) (children : List SymbolNode)

namespace SymbolNode

def kind : SymbolNode → SymbolKind
  | mk kind _ _ _ _ _ => kind

def name : SymbolNode → Option String
  | mk _ name _ _ _ _ => name

def line : SymbolNode → Nat
  | mk _ _ line _ _ _ => line

def declarations : SymbolNode → List String
  | mk _ _ _ declarations _ _ => declarations

/-- The names used below that belong here, in the order of their first use. -/
def references : SymbolNode → List String
  | mk _ _ _ _ references _ => references

def children : SymbolNode → List SymbolNode
  | mk _ _ _ _ _ children => children

mutual

/-- The node and all below it, each before what is below it. -/
def walk : SymbolNode → List SymbolNode
  | mk kind name line declarations references children =>
    mk kind name line declarations references children :: walkAll children

def walkAll : List SymbolNode → List SymbolNode
  | [] => []
  | node :: nodes => node.walk ++ walkAll nodes

end

end SymbolNode

/-- The names without those that came before. -/
def distinct (names : List String) : List String :=
  (names.foldl (fun kept name => if kept.contains name then kept else name :: kept) []).reverse

/-! ## Declarations -/

def Declarator.boundNamesOfAll (declarators : List Declarator) : List String :=
  declarators.flatMap fun | .mk target _ => target.namesBound

def ForHead.declaredNames : ForHead → List String
  | .declare _ declarators => Declarator.boundNamesOfAll declarators
  | .expr _ => []

def Function.names : Function → List String
  | .mk name _ _ _ _ => name.toList

mutual

/-- The names that a statement declares, not looking into functions. -/
def Stmt.declaredNames : Stmt → List String
  | .declare _ declarators => Declarator.boundNamesOfAll declarators
  | .function f => f.names
  | .block body => Stmt.declaredByAll body
  | .if_ _ consequent alternate =>
    consequent.declaredNames ++ Stmt.declaredByOption alternate
  | .for_ none _ _ body => body.declaredNames
  | .for_ (some head) _ _ body => head.declaredNames ++ body.declaredNames
  | .forIn head _ body => head.declaredNames ++ body.declaredNames
  | .while_ _ body _ => body.declaredNames
  | .doWhile body _ _ => body.declaredNames
  | .with_ _ body _ => body.declaredNames
  | .labeled _ body _ => body.declaredNames
  | .try_ body handler finalizer =>
    Stmt.declaredByAll body ++ Stmt.declaredByCatch handler ++ Stmt.declaredByFinally finalizer
  | .switch _ cases => Stmt.declaredByCases cases
  | _ => []

def Stmt.declaredByAll : List Stmt → List String
  | [] => []
  | stmt :: stmts => stmt.declaredNames ++ Stmt.declaredByAll stmts

/-- The names that a statement declares, if there is one. -/
def Stmt.declaredByOption : Option Stmt → List String
  | none => []
  | some stmt => stmt.declaredNames

/-- The names that a handler declares, its parameter first. -/
def Stmt.declaredByCatch : Option CatchClause → List String
  | none => []
  | some (.mk none body) => Stmt.declaredByAll body
  | some (.mk (some parameter) body) => parameter.namesBound ++ Stmt.declaredByAll body

def Stmt.declaredByFinally : Option (List Stmt) → List String
  | none => []
  | some body => Stmt.declaredByAll body

def Stmt.declaredByCases : List SwitchCase → List String
  | [] => []
  | .mk _ body :: cases => Stmt.declaredByAll body ++ Stmt.declaredByCases cases

end

/-! ## Harvests -/

/-- What a piece of the source contributes to what encloses it: symbol nodes, uses
of names that no function inside declares, and disallowed constructs. -/
structure Harvest where
  nodes : List SymbolNode
  uses : List String
  violations : List Issue

namespace Harvest

def empty : Harvest := ⟨[], [], []⟩

/-- What two pieces contribute, the first one first. -/
def append (a b : Harvest) : Harvest :=
  ⟨a.nodes ++ b.nodes, a.uses ++ b.uses, a.violations ++ b.violations⟩

instance : Append Harvest := ⟨append⟩

def use (name : String) : Harvest := ⟨[], [name], []⟩

/-- A construct that is not allowed. -/
def violation (position : Position) (message : String) : Harvest :=
  ⟨[], [], [⟨.disallowedConstruct, message, position⟩]⟩

/-- A node around a harvest that declares nothing. -/
def wrap (kind : SymbolKind) (name : Option String) (line : Nat) (inner : Harvest) : Harvest :=
  ⟨[.mk kind name line [] [] inner.nodes], inner.uses, inner.violations⟩

/-- A function around a harvest: it keeps the uses of the names it declares. -/
def close (name : Option String) (line : Nat) (declared : List String) (inner : Harvest) :
    Harvest :=
  let own := inner.uses.filter declared.contains
  ⟨[.mk .function name line declared (distinct own) inner.nodes],
    inner.uses.filter (fun name => !declared.contains name), inner.violations⟩

end Harvest

mutual

def Expr.harvest : Expr → Harvest
  | .ident name _ => .use name
  | .literal => .empty
  | .template parts => Expr.harvestAll parts
  | .array items => Expr.harvestAll items
  | .object properties position =>
    (Property.harvestAll properties).wrap .object none position.line
  | .function f => f.harvest
  | .call callee arguments _ position =>
    (callee.harvest ++ Expr.harvestAll arguments).wrap .call callee.dottedName position.line
  | .member inner _ => inner.harvest
  | .index inner property => inner.harvest ++ property.harvest
  | .unary _ operand => operand.harvest
  | .binary _ left right => left.harvest ++ right.harvest
  | .conditional test consequent alternate =>
    test.harvest ++ consequent.harvest ++ alternate.harvest
  | .sequence items => Expr.harvestAll items
  | .spread operand => operand.harvest

def Expr.harvestAll : List Expr → Harvest
  | [] => .empty
  | expr :: exprs => expr.harvest ++ Expr.harvestAll exprs

/-- What an expression contributes, if there is one. -/
def Expr.harvestOption : Option Expr → Harvest
  | none => .empty
  | some expr => expr.harvest

def PropertyKey.harvest : PropertyKey → Harvest
  | .named _ => .empty
  | .computed key => key.harvest

def Property.harvestAll : List Property → Harvest
  | [] => .empty
  | property :: properties => property.harvest ++ Property.harvestAll properties

def Property.harvest : Property → Harvest
  | .keyValue key value => key.harvest ++ value.harvest
  | .shorthand name _ fallback => .use name ++ Expr.harvestOption fallback
  | .method key f => key.harvest ++ f.harvest
  | .spread operand => operand.harvest

/-- What a function contributes: one node, and the uses it does not declare. -/
def Function.harvest : Function → Harvest
  | .mk name parameters body _ position =>
    (Expr.harvestPatterns parameters ++ Stmt.harvestAll body).close name position.line
      (distinct (boundNamesOfAll parameters ++ Stmt.declaredByAll body))

/-- What a binding pattern contributes: bound names are declarations, but defaults
and computed keys are evaluated. -/
def Expr.harvestPattern : Expr → Harvest
  | .ident _ _ => .empty
  | .array items => Expr.harvestPatterns items
  | .object properties _ => Property.harvestPatterns properties
  | .spread operand => operand.harvestPattern
  | .binary operator left right =>
    if operator = "=" then left.harvestPattern ++ right.harvest
    else left.harvest ++ right.harvest
  | .literal => .empty
  | .template parts => Expr.harvestAll parts
  | .function f => f.harvest
  | .call callee arguments _ position =>
    (callee.harvest ++ Expr.harvestAll arguments).wrap .call callee.dottedName position.line
  | .member inner _ => inner.harvest
  | .index inner property => inner.harvest ++ property.harvest
  | .unary _ operand => operand.harvest
  | .conditional test consequent alternate =>
    test.harvest ++ consequent.harvest ++ alternate.harvest
  | .sequence items => Expr.harvestAll items

def Expr.harvestPatterns : List Expr → Harvest
  | [] => .empty
  | pattern :: patterns => pattern.harvestPattern ++ Expr.harvestPatterns patterns

def Property.harvestPatterns : List Property → Harvest
  | [] => .empty
  | property :: properties => property.harvestPattern ++ Property.harvestPatterns properties

/-- What a property of an object pattern contributes. A method has no meaning there. -/
def Property.harvestPattern : Property → Harvest
  | .keyValue key value => key.harvest ++ value.harvestPattern
  | .shorthand _ _ fallback => Expr.harvestOption fallback
  | .method _ _ => .empty
  | .spread operand => operand.harvestPattern

def Declarator.harvestAll : List Declarator → Harvest
  | [] => .empty
  | .mk target init :: declarators =>
    target.harvestPattern ++ Expr.harvestOption init ++ Declarator.harvestAll declarators

def ForHead.harvest : Option ForHead → Harvest
  | none => .empty
  | some (.declare _ declarators) => Declarator.harvestAll declarators
  | some (.expr e) => e.harvest

/-- What the head of a loop over keys or items contributes; a bare one is a pattern. -/
def ForHead.harvestTarget : ForHead → Harvest
  | .declare _ declarators => Declarator.harvestAll declarators
  | .expr e => e.harvestPattern

def Stmt.harvest : Stmt → Harvest
  | .declare _ declarators => Declarator.harvestAll declarators
  | .function f => f.harvest
  | .expr e => e.harvest
  | .block body => Stmt.harvestAll body
  | .if_ test consequent alternate =>
    test.harvest ++ consequent.harvest ++ Stmt.harvestOption alternate
  | .for_ init test update body =>
    ForHead.harvest init ++ Expr.harvestOption test ++ Expr.harvestOption update ++ body.harvest
  | .forIn head subject body => head.harvestTarget ++ subject.harvest ++ body.harvest
  | .while_ test body position =>
    .violation position "'while' loops are not allowed" ++ test.harvest ++ body.harvest
  | .doWhile body test position =>
    .violation position "'do ... while' loops are not allowed" ++ body.harvest ++ test.harvest
  | .with_ object body position =>
    .violation position "'with' statements are not allowed" ++ object.harvest ++ body.harvest
  | .labeled label body position =>
    .violation position ("labeled statement '" ++ label ++ "' is not allowed") ++ body.harvest
  | .break_ (some label) position =>
    .violation position ("labeled 'break " ++ label ++ "' is not allowed")
  | .continue_ (some label) position =>
    .violation position ("labeled 'continue " ++ label ++ "' is not allowed")
  | .break_ none _ => .empty
  | .continue_ none _ => .empty
  | .return_ argument => Expr.harvestOption argument
  | .throw_ argument => argument.harvest
  | .try_ body handler finalizer =>
    Stmt.harvestAll body ++ CatchClause.harvest handler ++ Stmt.harvestFinally finalizer
  | .switch discriminant cases => discriminant.harvest ++ SwitchCase.harvestAll cases
  | .empty => .empty

def Stmt.harvestAll : List Stmt → Harvest
  | [] => .empty
  | stmt :: stmts => stmt.harvest ++ Stmt.harvestAll stmts

/-- What a statement contributes, if there is one. -/
def Stmt.harvestOption : Option Stmt → Harvest
  | none => .empty
  | some stmt => stmt.harvest

def CatchClause.harvest : Option CatchClause → Harvest
  | none => .empty
  | some (.mk none body) => Stmt.harvestAll body
  | some (.mk (some parameter) body) => parameter.harvestPattern ++ Stmt.harvestAll body

def Stmt.harvestFinally : Option (List Stmt) → Harvest
  | none => .empty
  | some body => Stmt.harvestAll body

def SwitchCase.harvestAll : List SwitchCase → Harvest
  | [] => .empty
  | .mk none body :: cases => Stmt.harvestAll body ++ SwitchCase.harvestAll cases
  | .mk (some test) body :: cases =>
    test.harvest ++ Stmt.harvestAll body ++ SwitchCase.harvestAll cases

end

/-! ## The tree -/

/-- The symbol tree of a script, given by its root. -/
structure SymbolTree where
  root : SymbolNode

namespace SymbolTree

/-- The tree of a program: the root keeps every use that no function declares. -/
def ofProgram (program : Program) : SymbolTree :=
  let harvest := Stmt.harvestAll program.body
  ⟨.mk .root none 0 (distinct (Stmt.declaredByAll program.body)) (distinct harvest.uses)
    harvest.nodes⟩

/-- Whether a function with this name stands directly under the root. -/
def declaresFunction (tree : SymbolTree) (name : String) : Bool :=
  tree.root.children.any fun node => node.kind == .function && node.name == some name

/-- The names used at the root: those that no function declares. -/
def freeNames (tree : SymbolTree) : List String := tree.root.references

/-- The dotted names of what is called, in the order of the source. -/
def calledPaths (tree : SymbolTree) : List String :=
  (tree.root.walk.filter (·.kind == .call)).filterMap (·.name)

end SymbolTree

/-- The disallowed constructs of a program, in the order of the walk. -/
def Program.violations (program : Program) : List Issue :=
  (Stmt.harvestAll program.body).violations

end ScriptHooks.Script
