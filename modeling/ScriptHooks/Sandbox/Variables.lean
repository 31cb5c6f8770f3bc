/-
ScriptHooks.Sandbox.Variables — names, what they stand for, and new functions.

A name stands for a variable in scope, else for one declared at the top of the script,
else for a property of the global object. A scope lists names with the places of their
variables, the innermost first; a function keeps the scope in which it was made, and
shares the variables themselves.

Variables declared in a block have no value until their declaration has run, and to
read or write one before that throws a `ReferenceError`. A name that stands for nothing
is an error for reading and for writing alike, since all scripts are strict.

What `this` and `new.target` stand for in a function is kept like a variable, under
names that no script can write. An arrow function declares neither, so it finds those
of the function around it by the usual search.

`Evaluator` is declared here and not with its value, because what evaluates patterns,
expressions and statements takes one as an argument.
-/
import ScriptHooks.Sandbox.Realm

namespace ScriptHooks.Sandbox

/-- How a statement ends. -/
inductive Completion
  | normal
  | break_ (label : Option Name)
  | continue_ (label : Option Name)
  | return_ (value : Value)

/-- What is done with the names of a pattern. -/
inductive Binding
  /-- They get another value. -/
  | assign
  /-- They get their first value. -/
  | firstValue
  deriving DecidableEq

/-- How what a construct contains is evaluated, and how functions are called. -/
structure Evaluator extends Machine where
  expr : Scope → Expr → Run Value
  bind : Binding → Scope → Expr → Value → Run Unit
  /-- A statement with the labels right before it. -/
  statement : List Name → Scope → Stmt → Run Completion

def thisName : Name := Units.ofString "this"

def newTargetName : Name := Units.ofString "new.target"

def argumentsName : Name := Units.ofString "arguments"

def Scope.find? (name : Name) : Scope → Option Nat
  | [] => none
  | (other, index) :: rest => if other = name then some index else Scope.find? name rest

namespace Run

/-! ## Declarations -/

def declare (scope : Scope) (name : Name) (content : Variable) : Run Scope := do
  pure ((name, ← newVariable content) :: scope)

/-- A scope with new variables that have no value yet. -/
def declareLexical (scope : Scope) (names : List LexicalName) : Run Scope :=
  names.foldlM (fun scope name => declare scope name.name ⟨none, name.constant⟩) scope

/-- A scope with new variables for names that it does not have, all `undefined`. -/
def declareVars (scope : Scope) (known names : List Name) : Run Scope :=
  (names.filter fun name => !known.contains name).foldlM
    (fun scope name => declare scope name ⟨some .undefined, false⟩) scope

def copyVariables : Nat → Scope → Run Scope
  | count + 1, (name, index) :: rest => do
    let rest ← copyVariables count rest
    let index ← newVariable (← readVariable index)
    pure ((name, index) :: rest)
  | _, scope => pure scope

/-! ## Names -/

def badName (name : Name) (complaint : String) : Run α :=
  fail .referenceError (name.toText ++ complaint)

def variableOf? (scope : Scope) (name : Name) : Run (Option Nat) := do
  match scope.find? name with
  | some index => pure (some index)
  | none => pure (Scope.find? name (← get).topNames)

def variableValue (name : Name) (index : Nat) : Run Value := do
  match (← readVariable index).value with
  | some value => pure value
  | none => badName name " is not initialized"

def nameValue? (m : Machine) (scope : Scope) (name : Name) : Run (Option Value) := do
  match ← variableOf? scope name with
  | some index => pure (some (← variableValue name index))
  | none =>
    match ← findProperty (.text name) (← chainLength) (some Intrinsic.global.ref) with
    | some property =>
      pure (some (← read m (.object Intrinsic.global.ref) property))
    | none => pure none

def nameValue (m : Machine) (scope : Scope) (name : Name) : Run Value := do
  match ← nameValue? m scope name with
  | some value => pure value
  | none => badName name " is not defined"

def assignName (m : Machine) (scope : Scope) (name : Name) (value : Value) : Run Unit := do
  match ← variableOf? scope name with
  | some index =>
    let _ ← variableValue name index
    if (← readVariable index).constant then
      typeError ("'" ++ name.toText ++ "' is read-only")
    else setVariable index value
  | none =>
    if ← hasProperty Intrinsic.global.ref (.text name) then
      setValue m (.object Intrinsic.global.ref) (.text name) value
    else badName name " is not defined"

def initializeName (m : Machine) (scope : Scope) (name : Name) (value : Value) : Run Unit := do
  match ← variableOf? scope name with
  | some index => setVariable index value
  | none => assignName m scope name value

def thisValue (scope : Scope) : Run Value := do
  match scope.find? thisName with
  | some index => variableValue thisName index
  | none => pure (.object Intrinsic.global.ref)

/-! ## New functions -/

def isConstructorKind : FunctionKind → Bool
  | .normal => true
  | _ => false

def newClosure (code : Code) (scope : Scope) : Run Value := do
  let header := code.header
  let ref ← allocate {
    proto := some Intrinsic.functionProto.ref
    kind := .closure code scope
    properties := #[
      ("length", ⟨.data (Value.ofNat header.arity) false, false, true⟩),
      ("name", ⟨.data (.text header.name) false, false, true⟩)] }
  if isConstructorKind header.kind then
    let proto ← newObject
    define proto "constructor" (.hidden (.object ref))
    define ref "prototype" ⟨.data (.object proto) true, false, false⟩
  pure (.object ref)

def declareFunctions (scope : Scope) (functions : List Code) : Run Scope := do
  let scope ← functions.foldlM
    (fun scope code => declare scope code.header.name ⟨some .undefined, false⟩) scope
  for code in functions do
    match scope.find? code.header.name with
    | some index => setVariable index (← newClosure code scope)
    | none => pure ()
  pure scope

def isConstructor (value : Value) : Run Bool := do
  match value with
  | .object ref =>
    match (← object ref).kind with
    | .closure code _ => pure (isConstructorKind code.header.kind)
    | .native f => pure f.isConstructor
    | .bound _ _ _ => pure true
    | _ => pure false
  | _ => pure false

end Run

end ScriptHooks.Sandbox
