/-
ScriptHooks.Sandbox.Expressions — what expressions evaluate to.

Operands are evaluated from left to right, each in the evaluator of one level below.
A definition here treats one kind of expression and takes that evaluator as an
argument, so it does not depend on the others.

A target of an assignment is evaluated in two steps. `placeOf` finds the place, with
its base and its key, and only then is the value read or written; `a[i++] += 1`
therefore advances `i` once.

A chain with `?.` that finds nothing is left by a short cut to where the chain ends.
The short cut is a halt like a thrown value, but the chain around it catches it
always, so none ever leaves an expression.
-/
import ScriptHooks.Sandbox.Patterns

namespace ScriptHooks.Sandbox

namespace Evaluator

open Run

/-! ## Literals -/

def templateText (e : Evaluator) (scope : Scope) (parts : List Expr) : Run Value := do
  let texts ← parts.mapM fun part => do
    match part with
    | .text text => pure text
    | other => toText e.toMachine (← e.expr scope other)
  textValue (texts.foldl (· ++ ·) Units.empty)

/-- The items of an array literal; missing ones are nothing. -/
def arrayItems (e : Evaluator) (scope : Scope) (items : List Expr) :
    Run (Array (Option Value)) :=
  items.foldlM (fun (found : Array (Option Value)) item => do
    match item with
    | .hole => pure (found.push none)
    | .spread list =>
      let more ← allItems e.toMachine (← e.expr scope list) none
      pure (found ++ (more.map some).toArray)
    | other => pure (found.push (some (← e.expr scope other)))) #[]

def arguments (e : Evaluator) (scope : Scope) (items : List Expr) : Run (List Value) := do
  let found ← items.foldlM (fun (found : List Value) item => do
    match item with
    | .spread list =>
      pure ((← allItems e.toMachine (← e.expr scope list) none).reverse ++ found)
    | other => pure ((← e.expr scope other) :: found)) []
  pure found.reverse

/-- A function as it is written in an object literal, with the key as its name. -/
def methodValue (e : Evaluator) (scope : Scope) (key : Key) (value : Expr) : Run Value := do
  let name : Name := match key with
    | .text name => name
    | .symbol _ => Units.empty
  match value with
  | .function (.mk header parameters body) =>
    if header.name.isEmpty then
      newClosure (.mk { header with name := name } parameters body) scope
    else newClosure (.mk header parameters body) scope
  | other => e.expr scope other

/-- Put a getter or a setter into an object; the other one stays. -/
def defineAccessor (ref : Ref) (key : Key) (isGetter : Bool) (f : Value) : Run Unit := do
  let (getter, setter) := match (← object ref).own? key with
    | some ⟨.accessor getter setter, _, _⟩ => (getter, setter)
    | _ => (.undefined, .undefined)
  let content := if isGetter then Content.accessor f setter else .accessor getter f
  define ref key ⟨content, true, true⟩

def addEntry (e : Evaluator) (scope : Scope) (ref : Ref) (entry : Entry) : Run Unit := do
  let m := e.toMachine
  match entry with
  | .mk .spread _ source =>
    let source ← e.expr scope source
    if !source.isNullish then
      for (name, value) in ← entriesOf m (← toObject source) do
        define ref (.text name) (.plain value)
  | .mk .proto _ value =>
    match ← e.expr scope value with
    | .object proto => change ref fun o => { o with proto := some proto }
    | .null => change ref fun o => { o with proto := none }
    | _ => pure ()
  | .mk kind key value =>
    let key ← toKey m (← e.expr scope key)
    match kind with
    | .getter => defineAccessor ref key true (← methodValue e scope key value)
    | .setter => defineAccessor ref key false (← methodValue e scope key value)
    | _ => define ref key (.plain (← methodValue e scope key value))

/-! ## Places -/

/-- A place that can be read and written. -/
inductive Place
  | name (name : Name)
  | property (base : Value) (key : Key)

def placeOf (e : Evaluator) (scope : Scope) (target : Expr) : Run Place := do
  match target with
  | .ident name => pure (.name name)
  | .member base name _ => pure (.property (← e.expr scope base) (.text name))
  | .index base key _ =>
    let base ← e.expr scope base
    let key ← e.expr scope key
    match base with
    | .undefined | .null =>
      let _ ← getValue e.toMachine base (← toKey e.toMachine key)
      pure (.property base (.text Units.empty))
    | _ => pure (.property base (← toKey e.toMachine key))
  | _ => fail .syntaxError "invalid assignment left-hand side"

def readPlace (e : Evaluator) (scope : Scope) : Place → Run Value
  | .name name => nameValue e.toMachine scope name
  | .property base key => getValue e.toMachine base key

def writePlace (e : Evaluator) (scope : Scope) (place : Place) (value : Value) : Run Unit :=
  match place with
  | .name name => assignName e.toMachine scope name value
  | .property base key => setValue e.toMachine base key value

/-! ## Operators -/

/-- What a logical operator does with its first operand: its value, if that decides. -/
def decides (op : LogicOp) (value : Value) : Bool :=
  match op with
  | .and => !value.isTruthy
  | .or => value.isTruthy
  | .coalesce => !value.isNullish

/-- The kind of an operand; a name that does not exist is `undefined`. -/
def typeofText (e : Evaluator) (scope : Scope) (operand : Expr) : Run Value := do
  let value ← match operand with
    | .ident name => pure ((← nameValue? e.toMachine scope name).getD .undefined)
    | other => e.expr scope other
  pure (.text (Units.ofString (← kindName value)))

/-- Leave the chain if it may be left and nothing was found. -/
def orLeave (optional : Bool) (value : Value) : Run Value := do
  if optional && value.isNullish then throw .shortCut else pure value

def deletePlace (e : Evaluator) (scope : Scope) (operand : Expr) : Run Value := do
  let m := e.toMachine
  let drop : Value → Key → Run Value := fun base key => do
    match base with
    | .object ref =>
      remove ref key
      pure (.bool true)
    | other =>
      let _ ← toObject other
      pure (.bool true)
  match operand with
  | .member base name optional =>
    drop (← orLeave optional (← e.expr scope base)) (.text name)
  | .index base key optional =>
    let base ← orLeave optional (← e.expr scope base)
    drop base (← toKey m (← e.expr scope key))
  | other =>
    let _ ← e.expr scope other
    pure (.bool true)

def updatePlace (e : Evaluator) (scope : Scope) (increment before : Bool) (target : Expr) :
    Run Value := do
  let place ← placeOf e scope target
  let old ← toNumeric e.toMachine (← readPlace e scope place)
  let new := stepBy increment old
  writePlace e scope place new
  pure (if before then new else old)

def assignTarget (e : Evaluator) (scope : Scope) (target value : Expr) : Run Value := do
  match target with
  | .array _ | .object _ =>
    let value ← e.expr scope value
    e.bind .assign scope target value
    pure value
  | .ident name =>
    let value ← e.expr scope value
    assignName e.toMachine scope name value
    pure value
  | .member base name _ =>
    let base ← e.expr scope base
    let value ← e.expr scope value
    setValue e.toMachine base (.text name) value
    pure value
  | .index base key _ =>
    let base ← e.expr scope base
    let key ← e.expr scope key
    let value ← e.expr scope value
    setValue e.toMachine base (← toKey e.toMachine key) value
    pure value
  | _ => fail .syntaxError "invalid assignment left-hand side"

/-! ## Calls -/

/-- A function to call, and its `this`: the object that it is a property of. -/
def ownedCallee (e : Evaluator) (scope : Scope) (callee : Expr) : Run (Value × Value) := do
  let m := e.toMachine
  match callee with
  | .member base name optional =>
    let base ← orLeave optional (← e.expr scope base)
    pure (← getValue m base (.text name), base)
  | .index base key optional =>
    let base ← orLeave optional (← e.expr scope base)
    let key ← e.expr scope key
    pure (← getIndexed e base key, base)
  | other => pure (← e.expr scope other, .undefined)
where
  /-- The value under a key; what cannot be asked is not asked for a key either. -/
  getIndexed (e : Evaluator) (base key : Value) : Run Value := do
    getValue e.toMachine base (← toKey e.toMachine key)

/-- A function to call, and its `this`. A chain that is cut short is no function. -/
def calleeOf (e : Evaluator) (scope : Scope) (callee : Expr) : Run (Value × Value) :=
  match callee with
  | .chain inner =>
    tryCatch (ownedCallee e scope inner) fun
      | .shortCut => pure (.undefined, .undefined)
      | other => throw other
  | other => ownedCallee e scope other

def callExpr (e : Evaluator) (scope : Scope) (callee : Expr) (items : List Expr)
    (optional : Bool) : Run Value := do
  let (f, this) ← calleeOf e scope callee
  let f ← orLeave optional f
  let values ← arguments e scope items
  call e.toMachine f this values

def newExpr (e : Evaluator) (scope : Scope) (callee : Expr) (items : List Expr) :
    Run Value := do
  let f ← e.expr scope callee
  let values ← arguments e scope items
  if ← isConstructor f then e.construct f values
  else typeError (if ← isCallable f then "not a constructor" else "not a function")

/-! ## Expressions -/

def evalLeaf (e : Evaluator) (scope : Scope) (expr : Expr) : Run Value := do
  match expr with
  | .null => pure .null
  | .bool b => pure (.bool b)
  | .number x => pure (.number x)
  | .bigint n => pure (.bigint n)
  | .text text => pure (.text text)
  | .regex source flags => newRegex source flags
  | .this => thisValue scope
  | .newTarget =>
    match scope.find? newTargetName with
    | some index => variableValue newTargetName index
    | none => pure .undefined
  | .ident name => nameValue e.toMachine scope name
  | _ => pure .undefined

def evalExpr (e : Evaluator) (scope : Scope) (expr : Expr) : Run Value := do
  let m := e.toMachine
  match expr with
  | .template parts => templateText e scope parts
  | .array items => newArray (← arrayItems e scope items)
  | .object entries =>
    let ref ← newObject
    entries.forM (addEntry e scope ref)
    pure (.object ref)
  | .function code => newClosure code scope
  | .unary op operand => applyUnary m op (← e.expr scope operand)
  | .typeof operand => typeofText e scope operand
  | .delete operand => deletePlace e scope operand
  | .update increment before target => updatePlace e scope increment before target
  | .binary op left right =>
    let a ← e.expr scope left
    let b ← e.expr scope right
    applyBinary m op a b
  | .logic op left right =>
    let value ← e.expr scope left
    if decides op value then pure value else e.expr scope right
  | .conditional test yes no =>
    if (← e.expr scope test).isTruthy then e.expr scope yes else e.expr scope no
  | .assign target value => assignTarget e scope target value
  | .compound op target value =>
    let place ← placeOf e scope target
    let old ← readPlace e scope place
    let new ← applyBinary m op old (← e.expr scope value)
    writePlace e scope place new
    pure new
  | .logicAssign op target value =>
    let place ← placeOf e scope target
    let old ← readPlace e scope place
    if decides op old then pure old
    else
      let new ← e.expr scope value
      writePlace e scope place new
      pure new
  | .call callee items optional => callExpr e scope callee items optional
  | .new callee items => newExpr e scope callee items
  | .member base name optional =>
    getValue m (← orLeave optional (← e.expr scope base)) (.text name)
  | .index base key optional =>
    let base ← orLeave optional (← e.expr scope base)
    let key ← e.expr scope key
    getValue m base (← toKey m key)
  | .chain inner =>
    tryCatch (e.expr scope inner) fun
      | .shortCut => pure .undefined
      | halt => throw halt
  | .sequence first second =>
    let _ ← e.expr scope first
    e.expr scope second
  | leaf => evalLeaf e scope leaf

end Evaluator

end ScriptHooks.Sandbox
