/-
ScriptHooks.Sandbox.Patterns — values taken apart by patterns.

A name gets the value, a place is written, an array pattern takes the items of a list
in turn, an object pattern takes properties by their keys. What stands after `=` is
evaluated where the value would be `undefined`.
-/
import ScriptHooks.Sandbox.Variables

namespace ScriptHooks.Sandbox

namespace Evaluator

open Run

def bindName (e : Evaluator) (binding : Binding) (scope : Scope) (name : Name)
    (value : Value) : Run Unit :=
  match binding with
  | .assign => assignName e.toMachine scope name value
  | .firstValue => initializeName e.toMachine scope name value

/-- A value, or that of an expression in the place of `undefined`. -/
def orDefault (e : Evaluator) (scope : Scope) (value : Value) (default : Expr) : Run Value :=
  match value with
  | .undefined => e.expr scope default
  | other => pure other

/-- How many items an array pattern takes; nothing if it takes all. -/
def itemCount : List Expr → Option Nat
  | [] => some 0
  | .spread _ :: _ => none
  | _ :: rest => (itemCount rest).map (· + 1)

/-- Take items apart by the elements of an array pattern. -/
def bindItems (e : Evaluator) (binding : Binding) (scope : Scope) :
    List Expr → List Value → Run Unit
  | [], _ => pure ()
  | .hole :: elements, items => bindItems e binding scope elements items.tail
  | .spread rest :: _, items => do e.bind binding scope rest (← newList items)
  | element :: elements, items => do
    e.bind binding scope element (items.headD .undefined)
    bindItems e binding scope elements items.tail

/-- The properties of an object but for some keys, in a new object. -/
def otherEntries (m : Machine) (ref : Ref) (taken : List Key) : Run Value := do
  let rest ← newObject
  for (name, value) in ← entriesOf m ref do
    if !taken.contains (.text name) then
      define rest (.text name) (.plain value)
  pure (.object rest)

/-- Take an object apart by the fields of an object pattern; `taken` are the keys of
those before. -/
def bindFields (e : Evaluator) (binding : Binding) (scope : Scope) (value : Value)
    (taken : List Key) : List Entry → Run Unit
  | [] => pure ()
  | .mk .spread _ rest :: _ => do
    let others ← otherEntries e.toMachine (← toObject value) taken
    e.bind binding scope rest others
  | .mk _ key target :: fields => do
    let key ← toKey e.toMachine (← e.expr scope key)
    e.bind binding scope target (← getValue e.toMachine value key)
    bindFields e binding scope value (key :: taken) fields

def bindPattern (e : Evaluator) (binding : Binding) (scope : Scope) (pattern : Expr)
    (value : Value) : Run Unit := do
  let m := e.toMachine
  match pattern with
  | .ident name => bindName e binding scope name value
  | .member base name _ => setValue m (← e.expr scope base) (.text name) value
  | .index base key _ =>
    let base ← e.expr scope base
    let key ← toKey m (← e.expr scope key)
    setValue m base key value
  | .assign target default => e.bind binding scope target (← orDefault e scope value default)
  | .array elements =>
    let items ← allItems m value (itemCount elements)
    bindItems e binding scope elements items
  | .object fields =>
    let _ ← toObject value
    bindFields e binding scope value [] fields
  | _ => fail .syntaxError "invalid assignment left-hand side"

end Evaluator

end ScriptHooks.Sandbox
