/-
ScriptHooks.Sandbox.Evaluator — functions called, and whole programs run.

`Evaluator.ofDepth` ties the knot: what evaluates a construct evaluates its parts one
level below, and below the last level scripts find that the stack is full. As with
the grammar, the recursion is on the depth alone. Calls count like constructs, so a
function that calls itself without end is stopped by the depth, with a `RangeError`
that it may catch, and a loop without end by the budget, which it may not.

A call prepares its scope in a fixed order: the function's own name, `this` and
`new.target`, the `arguments` object if the function speaks of it, the parameters, the
names declared with `var`, the names of the body, and its functions. If every
parameter is a plain name they are `undefined` before they are bound, else they have
no value until their turn comes, and a default that asks for a later parameter throws.

A program is like a body without a call. Its functions and what it declares with `var`
are properties of the global object, where the host finds the entry point; what it
declares with `let` and `const` is in `World.topNames`, where the host does not look.
-/
import ScriptHooks.Sandbox.Statements

namespace ScriptHooks.Sandbox

namespace Evaluator

open Run

/-! ## Functions -/

def argumentsObject (values : List Value) : Run Value := do
  let items := values.zipIdx.map fun (value, i) => (Key.ofNat i, Property.plain value)
  let count : Key × Property := ("length", .hidden (Value.ofNat values.length))
  let ref ← allocate {
    proto := some Intrinsic.objectProto.ref
    kind := .arguments
    properties := (items ++ [count]).toArray }
  pure (.object ref)

/-- The scope of a call, before its parameters: what the function's own name, `this`,
`new.target` and `arguments` stand for. Arrow functions see those around them. -/
def callScope (header : FunctionHeader) (self : Value) (scope : Scope)
    (this newTarget : Value) (values : List Value) : Run Scope := do
  let scope ← if header.bindsName then declare scope header.name ⟨some self, true⟩
    else pure scope
  if header.kind = .arrow then pure scope
  else
    let scope ← declare scope thisName ⟨some this, true⟩
    let scope ← declare scope newTargetName ⟨some newTarget, true⟩
    if header.usesArguments then
      declare scope argumentsName ⟨some (← argumentsObject values), false⟩
    else pure scope

def isPlain : Expr → Bool
  | .ident _ => true
  | _ => false

def bindFunctions (scope : Scope) (functions : List Code) : Run Unit :=
  for code in functions do
    match scope.find? code.header.name with
    | some index => setVariable index (← newClosure code scope)
    | none => pure ()

def enter (e : Evaluator) (self : Value) (code : Code) (scope : Scope)
    (this newTarget : Value) (values : List Value) : Run Value := do
  match code with
  | .mk header parameters (.mk names functions body) =>
    let scope ← callScope header self scope this newTarget values
    let blank : Option Value := if parameters.all isPlain then some .undefined else none
    let scope ← header.parameters.foldlM
      (fun scope name => declare scope name ⟨blank, false⟩) scope
    bindItems e .firstValue scope parameters values
    let scope ← declareVars scope header.parameters header.vars
    let scope ← declareLexical scope names
    bindFunctions scope functions
    match ← runStatements e scope body with
    | .return_ value => pure value
    | _ => pure .undefined

def callValue (e : Evaluator) (f this : Value) (values : List Value) : Run Value := do
  tick
  match f with
  | .object ref =>
    match (← object ref).kind with
    | .closure code scope => enter e f code scope this .undefined values
    | .native g => g.call e.toMachine this values
    | .bound target this given => e.call target this (given ++ values)
    | _ => typeError "not a function"
  | _ => typeError "not a function"

def madePrototype (m : Machine) (f : Value) : Run Ref := do
  match ← getValue m f "prototype" with
  | .object ref => pure ref
  | _ => pure Intrinsic.objectProto.ref

def constructValue (e : Evaluator) (f : Value) (values : List Value) : Run Value := do
  tick
  match f with
  | .object ref =>
    match (← object ref).kind with
    | .closure code scope =>
      let made ← allocate { proto := some (← madePrototype e.toMachine f) }
      match ← enter e f code scope (.object made) f values with
      | .object other => pure (.object other)
      | _ => pure (.object made)
    | .native g => g.construct e.toMachine values
    | .bound target _ given => e.construct target (given ++ values)
    | _ => typeError "not a constructor"
  | _ => typeError "not a constructor"

/-! ## The knot -/

def overflow : Run α := rangeError "Maximum call stack size exceeded"

/-- The evaluator of what nests at most so deep, calls included. -/
def ofDepth : Nat → Evaluator
  | 0 => {
      call := fun _ _ _ => overflow
      construct := fun _ _ => overflow
      expr := fun _ _ => overflow
      bind := fun _ _ _ _ => overflow
      statement := fun _ _ _ => overflow }
  | depth + 1 =>
    let inner := ofDepth depth
    { call := fun f this values => callValue inner f this values
      construct := fun f values => constructValue inner f values
      expr := fun scope expr => evalExpr inner scope expr
      bind := fun binding scope pattern value => bindPattern inner binding scope pattern value
      statement := fun labels scope statement => runStatement inner labels scope statement }

end Evaluator

/-- How deep constructs and calls may nest. -/
def stackDepth : Nat := 12000

def evaluator : Evaluator := Evaluator.ofDepth stackDepth

/-! ## Programs -/

namespace Run

def declareGlobal (name : Name) (value : Value) : Run Unit :=
  define Intrinsic.global.ref (.text name) ⟨.data value true, true, false⟩

def declareProgram (program : Program) : Run Unit := do
  for name in program.vars do
    if ((← object Intrinsic.global.ref).own? (.text name)).isNone then
      declareGlobal name .undefined
  match program.block with
  | .mk names functions _ =>
    let topNames ← declareLexical [] names
    modify fun w => { w with topNames := topNames }
    for code in functions do
      declareGlobal code.header.name (← newClosure code [])

def runProgram (program : Program) : Run Unit := do
  declareProgram program
  match program.block with
  | .mk _ _ body =>
    let _ ← evaluator.runStatements [] body
    pure ()

end Run

end ScriptHooks.Sandbox
