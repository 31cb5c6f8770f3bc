/-
ScriptHooks.Sandbox.Conversion — what a script returns, as the host's JSON.

What has no JSON becomes `null`, or is left out where it is a property; an object that
says itself how it is written, by `toJSON`, is asked. Values that nest deeper than
`maxReturnDepth` are refused, so a value that contains itself is too. The depth is what
`toJson` recurses on.

Looking at a value may run functions of the script, where a property is read through a
getter or an object is asked for `toJSON`. What they throw ends the conversion with a
fault of its own, which does not name what was thrown.

A number is a whole number for the host if doubles tell it apart from its neighbours,
which they do up to 2^53 - 1; beyond that it stays a double. Together with
`Sandbox.JsonText`, which goes the other way, this decides which values come back from
a script as they went in (`ScriptHooks.Proofs.Sandbox.RoundTrips`).
-/
import ScriptHooks.Sandbox.Builtin.Lists
import ScriptHooks.Sandbox.JsonText

namespace ScriptHooks.Sandbox

/-- How deep a returned value may nest. -/
def maxReturnDepth : Nat := 64

/-- Why a value has no JSON. -/
inductive ConversionFault
  | tooDeep
  /-- A surrogate stands alone after so many bytes of a text. -/
  | badText (bytes : Nat)
  /-- Something was thrown while the value was looked at. -/
  | thrown
  deriving DecidableEq

def ConversionFault.message : ConversionFault → String
  | .tooDeep =>
    "value nests deeper than " ++ toString maxReturnDepth ++ " levels (cyclic structure?)"
  | .badText bytes =>
    "QuickJS: Conversion from string failed: invalid utf-8 sequence of 1 bytes from index "
      ++ toString bytes
  | .thrown => "QuickJS: Exception generated by QuickJS"

/-- A number as JSON: a whole number if it is one that doubles tell apart. -/
def numberJson (x : Float) : Json :=
  match Numeric.truncate x with
  | some n =>
    if Numeric.isIntegral x && n.natAbs ≤ 0x1fffffffffffff then Json.ofInt n else Json.ofFloat x
  | none => Json.ofFloat x

def textJson (text : Units) : Except ConversionFault String :=
  match text.decode with
  | .ok text => .ok text
  | .error bytes => .error (.badText bytes)

namespace Run

/-- What is done, or a fault if the script ends meanwhile. -/
def guarded (act : Run α) : ExceptT ConversionFault Run α :=
  ExceptT.mk (tryCatch (do pure (.ok (← act))) fun _ => pure (.error .thrown))

/-- The function under a key; none if asking for it fails. -/
def methodIfAny (m : Machine) (value : Value) (key : Key) : Run (Option Value) :=
  tryCatch (getMethod m value key) fun _ => pure none

/-- A returned value as JSON; `depth` says how deep it may still nest. -/
def toJson (m : Machine) : Nat → Value → ExceptT ConversionFault Run Json
  | 0, _ => throw .tooDeep
  | depth + 1, value => do
    match value with
    | .undefined | .null | .symbol _ | .bigint _ => pure .null
    | .bool b => pure (.bool b)
    | .number x => pure (numberJson x)
    | .text text => pure (.string (← ExceptT.mk (pure (textJson text))))
    | .object ref =>
      let found ← object ref
      if found.isCallable then pure .null
      else
        match found.kind with
        | .array _ length _ =>
          let items ← (List.range length).mapM fun i => do
            let item ← guarded (getValue m value (Key.ofNat i))
            toJson m depth item
          pure (.array items)
        | _ =>
          match ← methodIfAny m value "toJSON" with
          | some method =>
            let written ← guarded (m.call method value [])
            toJson m depth written
          | none =>
            let entries ← (← namesOf ref).mapM fun name => do
              let key ← ExceptT.mk (pure (textJson name))
              let item ← guarded (getValue m value (.text name))
              if ← leftOut item then pure none
              else pure (some (key, ← toJson m depth item))
            pure (.ofEntries (entries.filterMap id))
where
  /-- Whether a property with the value is left out. -/
  leftOut (item : Value) : Run Bool := do
    match item with
    | .undefined => pure true
    | other => isCallable other

def returnedJson (m : Machine) (value : Value) : Run (Except ConversionFault Json) :=
  (toJson m (maxReturnDepth + 1) value).run

end Run

end ScriptHooks.Sandbox
