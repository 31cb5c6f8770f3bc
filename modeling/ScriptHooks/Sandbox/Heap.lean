/-
ScriptHooks.Sandbox.Heap — what a running script works on.

Values that are not objects are what they are; an object is a place in the store.
The `World` holds the objects, the variables, what is left of the script's budget,
and what the script has done to the world outside. Objects and variables are never
taken out of the world: a place that was given once stays valid for the whole run.

A `Run` changes the world and gives a value, unless it halts. There are three ways
to halt. Something is thrown, which a script may catch. The budget is used up, which
no script can catch. Or a chain with `?.` ends early, which the evaluation of that
chain always catches itself.

Two resources are counted. `tick` takes one step of the budget and stands at every
call and in every round of a loop, so the number of steps bounds the length of a run.
`charge` takes bytes where a world has a limit of memory: each new object costs
`objectSize`, a new text what it takes. A script that asks for more finds an
`InternalError`, which it may catch like any other.

`newError` makes its object without asking for memory, for otherwise a script out of
memory could not be told so.
-/
import ScriptHooks.Hook.Runtime
import ScriptHooks.Sandbox.Native
import ScriptHooks.Sandbox.Syntax

namespace ScriptHooks.Sandbox

/-- A value of a script. -/
inductive Value
  | undefined
  | null
  | bool (value : Bool)
  | number (value : Float)
  | bigint (value : Int)
  | text (value : Units)
  | symbol (id : Nat)
  | object (ref : Ref)

instance : Inhabited Value := ⟨.undefined⟩

/-- The key of a property. -/
inductive Key
  | text (name : Name)
  | symbol (id : Nat)
  deriving DecidableEq

instance : Coe String Key := ⟨fun s => .text (Units.ofString s)⟩

/-- What a property holds: a value, or functions that read and write it. -/
inductive Content
  | data (value : Value) (writable : Bool)
  | accessor (getter setter : Value)

/-- A property. -/
structure Property where
  content : Content
  enumerable : Bool
  configurable : Bool

def Property.plain (value : Value) : Property := ⟨.data value true, true, true⟩

/-- A property that does not show, and may be changed. -/
def Property.hidden (value : Value) : Property := ⟨.data value true, false, true⟩

/-- Variables in scope, and where they are kept; the innermost first. -/
abbrev Scope := List (Name × Nat)

/-- What an object is besides its properties. -/
inductive ObjectKind
  | ordinary
  /-- The items of an array, its length, and whether the length may change. Places
  beyond the items are empty. -/
  | array (items : Array (Option Value)) (length : Nat) (resizable : Bool)
  | closure (code : Code) (scope : Scope)
  | native (f : Native)
  | bound (target this : Value) (arguments : List Value)
  | error
  | arguments
  | boxed (value : Value)
  | date (milliseconds : Float)
  | regex (source flags : Units)
  | map (entries : List (Value × Value))
  | set (items : List Value)
  /-- Items that are still to come. -/
  | items (rest : List Value)

/-- An object. The properties are in the order of their creation. -/
structure Obj where
  proto : Option Ref
  kind : ObjectKind := .ordinary
  extensible : Bool := true
  properties : Array (Key × Property) := #[]

instance : Inhabited Obj := ⟨{ proto := none }⟩

/-- A variable: its value, if it has one yet, and whether it may change. -/
structure Variable where
  value : Option Value
  constant : Bool

instance : Inhabited Variable := ⟨⟨none, false⟩⟩

/-- What a script runs in: who logs, and how requests are sent. -/
structure HostAccess where
  context : LogContext
  send : HttpTransport

/-- Everything that a script can change, and the host that it runs in. -/
structure World where
  host : HostAccess
  objects : Array Obj
  /-- The variables of all functions, by their places. -/
  cells : Array Variable := #[]
  /-- The names declared at the top of the script. -/
  topNames : Scope := []
  /-- The descriptions of symbols. -/
  symbols : Array (Option Units) := #[]
  /-- How many more calls and rounds of loops there may be. -/
  budget : Nat
  /-- How many more bytes may be used, if there is a limit. -/
  memory : Option Nat := none
  /-- What was logged, the latest first. -/
  logs : List LogRecord := []
  /-- What was requested, the latest first. -/
  requests : List SentRequest := []

/-- Why a run ends before its time. -/
inductive Halt
  | thrown (value : Value)
  | outOfBudget
  /-- A chain with `?.` ends here. -/
  | shortCut

abbrev Run := EStateM Halt World

/-- What a step may call on: the functions of the script. -/
structure Machine where
  /-- Call a function with `this` and arguments. -/
  call : Value → Value → List Value → Run Value
  /-- Make an object with a constructor. -/
  construct : Value → List Value → Run Value

namespace Run

def object (ref : Ref) : Run Obj := return (← get).objects.getD ref default

def change (ref : Ref) (f : Obj → Obj) : Run Unit :=
  modify fun w => { w with objects := w.objects.modify ref f }

def newVariable (v : Variable) : Run Nat :=
  modifyGet fun w => (w.cells.size, { w with cells := w.cells.push v })

def readVariable (index : Nat) : Run Variable := return (← get).cells.getD index default

def setVariable (index : Nat) (value : Value) : Run Unit :=
  modify fun w => { w with
    cells := w.cells.modify index fun v => { v with value := some value } }

/-- A new object, with no regard to what may be used. -/
def place (object : Obj) : Run Ref :=
  modifyGet fun w => (w.objects.size, { w with objects := w.objects.push object })

def newError (kind : ErrorKind) (message : Units) : Run Value := do
  let ref ← place {
    proto := some (Intrinsic.errorProto kind).ref
    kind := .error
    properties := #[(("message" : String), .hidden (.text message))] }
  pure (.object ref)

def fail (kind : ErrorKind) (message : String) : Run α := do
  throw (.thrown (← newError kind (Units.ofString message)))

def typeError (message : String) : Run α := fail .typeError message

def rangeError (message : String) : Run α := fail .rangeError message

def charge (bytes : Nat) : Run Unit := do
  match (← get).memory with
  | none => pure ()
  | some left =>
    if left < bytes then fail .internalError "out of memory"
    else modify fun w => { w with memory := some (left - bytes) }

def objectSize : Nat := 96

def allocate (object : Obj) : Run Ref := do
  charge objectSize
  place object

def newObject : Run Ref := allocate { proto := some Intrinsic.objectProto.ref }

def newArray (items : Array (Option Value)) : Run Value := do
  let ref ← allocate {
    proto := some Intrinsic.arrayProto.ref
    kind := .array items items.size true }
  pure (.object ref)

def newList (items : List Value) : Run Value := newArray (items.map Option.some).toArray

def tick : Run Unit := do
  if (← get).budget = 0 then throw .outOfBudget
  else modify fun w => { w with budget := w.budget - 1 }

def maxTextSize : Nat := 0x3fffffff

/-- A text that takes so many more bytes, if there is room for it. -/
def grownText (text : Units) (bytes : Nat) : Run Value := do
  if maxTextSize < text.size then rangeError "invalid string length"
  else
    charge bytes
    pure (.text text)

def textValue (text : Units) : Run Value := grownText text text.size

/-- Rounds of a loop, each a step of the budget, until one gives a result. -/
def rounds (step : σ → Run (Except σ α)) (state : σ) : Nat → Run α
  | 0 => throw .outOfBudget
  | count + 1 => do
    tick
    match ← step state with
    | .ok result => pure result
    | .error state => rounds step state count

/-- Rounds of a loop until one gives a result or the budget is used up. -/
def loop (step : σ → Run (Except σ α)) (state : σ) : Run α := do
  rounds step state ((← get).budget + 1)

end Run

end ScriptHooks.Sandbox
