/-
ScriptHooks.Sandbox.Builtin.Texts — the functions of texts.

Places in a text are counted in units. Changing the case of a text changes letters of
ASCII and of Latin-1; all others stay as they are.
-/
import ScriptHooks.Sandbox.Builtin.Lists

namespace ScriptHooks.Sandbox

/-- The capital of a small letter of ASCII or Latin-1. -/
def upperUnit (unit : UInt16) : UInt16 :=
  let n := unit.toNat
  if (97 ≤ n && n ≤ 122) || (0xe0 ≤ n && n ≤ 0xfe && n ≠ 0xf7) then unit - 32 else unit

/-- The small letter of a capital of ASCII or Latin-1. -/
def lowerUnit (unit : UInt16) : UInt16 :=
  let n := unit.toNat
  if (65 ≤ n && n ≤ 90) || (0xc0 ≤ n && n ≤ 0xde && n ≠ 0xd7) then unit + 32 else unit

namespace Units

/-- The units before a place where another text stands, and those after; from the
start on, all of them. -/
def splitAll (separator : Units) (text : Units) (start : Nat) : Nat → List Units
  | 0 => [text.slice start text.size]
  | fuel + 1 =>
    match text.find? separator start with
    | some i => text.slice start i :: splitAll separator text (i + separator.size) fuel
    | none => [text.slice start text.size]

/-- The parts of a text between places where a separator stands; its units if the
separator is empty. -/
def split (text separator : Units) : List Units :=
  if separator.isEmpty then text.units.toList.map fun unit => ⟨#[unit]⟩
  else splitAll separator text 0 text.size

/-- The last place at or before `start` where `part` stands. -/
def findLast? (text part : Units) : Nat → Option Nat
  | 0 => if part.occursAt text 0 then some 0 else none
  | start + 1 =>
    if part.occursAt text (start + 1) then some (start + 1) else findLast? text part start

def isBlankUnit (unit : UInt16) : Bool := isScriptBlank (Char.ofNat unit.toNat)

def trim (text : Units) (atStart atEnd : Bool) : Units :=
  let units := text.units.toList
  let units := if atStart then units.dropWhile isBlankUnit else units
  let units := if atEnd then (units.reverse.dropWhile isBlankUnit).reverse else units
  ⟨units.toArray⟩

end Units

namespace Run

def thisText (m : Machine) (this : Value) : Run Units := do
  match this with
  | .text text => pure text
  | .undefined => typeError "null or undefined are forbidden"
  | .null => typeError "null or undefined are forbidden"
  | .object ref =>
    match (← object ref).kind with
    | .boxed (.text text) => pure text
    | _ => toText m this
  | other => toText m other

/-- A whole number that an argument gives; another if there is no argument. -/
def integerArgument (m : Machine) (arguments : List Value) (index : Nat) (default : Int) :
    Run Int := do
  if hasArgument arguments index then toInteger m (argument arguments index) else pure default

/-- A whole number put between zero and a length. -/
def within (length : Nat) (n : Int) : Nat := min n.toNat length

/-- A text that replaces another, with `$` for what it stands for. -/
def expanded (text part : Units) (start : Nat) : List UInt16 → List UInt16
  | 36 :: 36 :: rest => 36 :: expanded text part start rest
  | 36 :: 38 :: rest => part.units.toList ++ expanded text part start rest
  | 36 :: 96 :: rest => (text.slice 0 start).units.toList ++ expanded text part start rest
  | 36 :: 39 :: rest =>
    (text.slice (start + part.size) text.size).units.toList ++ expanded text part start rest
  | unit :: rest => unit :: expanded text part start rest
  | [] => []

/-- What replaces a part of a text: the answer of a function, or a text. -/
def replacement (m : Machine) (by_ : Value) (text part : Units) (start : Nat) : Run Units := do
  if ← isCallable by_ then
    toText m (← m.call by_ .undefined [.text part, Value.ofNat start, .text text])
  else pure ⟨(expanded text part start (← toText m by_).units.toList).toArray⟩

/-- The text with a part of it replaced, wherever it stands or at the first place. -/
def replaced (m : Machine) (text part : Units) (by_ : Value) (everywhere : Bool) : Run Units :=
  loop (fun ((start, done) : Nat × Units) => do
    match text.find? part start with
    | some i =>
      let new ← replacement m by_ text part i
      let done := done ++ text.slice start i ++ new
      let after := i + part.size
      if !everywhere then pure (.ok (done ++ text.slice after text.size))
      else if part.isEmpty then
        if i < text.size then pure (.error (i + 1, done ++ text.slice i (i + 1)))
        else pure (.ok done)
      else pure (.error (after, done))
    | none => pure (.ok (done ++ text.slice start text.size))) (0, Units.empty)

/-- The text of as many units as an argument says, filled up with another text. -/
def padding (m : Machine) (text : Units) (arguments : List Value) : Run Units := do
  let width := (← toInteger m (argument arguments 0)).toNat
  let filler ← if hasArgument arguments 1 then toText m (argument arguments 1)
    else pure (Units.ofString " ")
  if width ≤ text.size || filler.isEmpty then pure Units.empty
  else if maxTextSize < width then rangeError "invalid string length"
  else
    let missing := width - text.size
    pure ((filler.replicate (missing / filler.size + 1)).slice 0 missing)

def repeated (m : Machine) (text : Units) (count : Value) : Run Value := do
  let count ← toInteger m count
  if count < 0 || 0x7fffffff < count then rangeError "invalid repeat count"
  else if maxTextSize < text.size * count.toNat then rangeError "invalid string length"
  else
    charge (text.size * count.toNat)
    pure (.text (text.replicate count.toNat))

/-- The text that a call of `String` makes. -/
def makeText (m : Machine) (arguments : List Value) : Run Value := do
  match arguments with
  | [] => pure (.text Units.empty)
  | .symbol id :: _ =>
    let description := ((← get).symbols.getD id none).getD Units.empty
    pure (.text (Units.ofString "Symbol(" ++ description ++ Units.ofString ")"))
  | value :: _ => pure (.text (← toText m value))

def searchFunction (m : Machine) (f : TextFunction) (text : Units) (arguments : List Value) :
    Run Value := do
  let part ← toText m (argument arguments 0)
  let start := within text.size (← integerArgument m arguments 1 0)
  match f with
  | .indexOf => pure (placeValue (text.find? part start))
  | .lastIndexOf =>
    let start := if hasArgument arguments 1 then start else text.size
    pure (placeValue (text.findLast? part start))
  | .includes => pure (.bool (text.find? part start).isSome)
  | .startsWith => pure (.bool (part.occursAt text start))
  | _ =>
    let stop := if hasArgument arguments 1 then start else text.size
    pure (.bool (part.size ≤ stop && part.occursAt text (stop - part.size)))

def partFunction (m : Machine) (f : TextFunction) (text : Units) (arguments : List Value) :
    Run Value := do
  let index ← toInteger m (argument arguments 0)
  let unit := if 0 ≤ index then text.at? index.toNat else none
  match f with
  | .charAt => pure (.text (unit.getD Units.empty))
  | .charCodeAt =>
    pure (match unit.bind fun u => u.units[0]? with
      | some u => Value.ofNat u.toNat
      | none => .number notANumber)
  | .codePointAt =>
    pure (match unit, (text.slice index.toNat (index.toNat + 2)).pieces with
      | some _, .char c :: _ => Value.ofNat c.toNat
      | some _, .lone u :: _ => Value.ofNat u.toNat
      | _, _ => .undefined)
  | .at_ =>
    let place := if index < 0 then (text.size : Int) + index else index
    let found := if place < 0 then none else text.at? place.toNat
    pure (match found with | some u => .text u | none => .undefined)
  | .slice =>
    let start := placeFrom text.size index
    let stop ← placeArgument m arguments 1 text.size text.size
    pure (.text (text.slice start stop))
  | .substring =>
    let start := within text.size index
    let stop := within text.size (← integerArgument m arguments 1 text.size)
    pure (.text (text.slice (min start stop) (max start stop)))
  | _ =>
    let start := placeFrom text.size index
    let count := within text.size (← integerArgument m arguments 1 text.size)
    pure (.text (text.slice start (start + count)))

def madeFunction (m : Machine) (f : TextFunction) (text : Units) (arguments : List Value) :
    Run Value := do
  match f with
  | .split =>
    let limit := (← integerArgument m arguments 1 (0xffffffff)).toNat
    if hasArgument arguments 0 then
      let separator ← toText m (argument arguments 0)
      newList (((text.split separator).take limit).map .text)
    else newList ([.text text].take limit)
  | .trim => pure (.text (text.trim true true))
  | .trimStart => pure (.text (text.trim true false))
  | .trimEnd => pure (.text (text.trim false true))
  | .toUpperCase => pure (.text ⟨text.units.map upperUnit⟩)
  | .toLowerCase => pure (.text ⟨text.units.map lowerUnit⟩)
  | .repeat => repeated m text (argument arguments 0)
  | .padStart => textValue ((← padding m text arguments) ++ text)
  | .padEnd => textValue (text ++ (← padding m text arguments))
  | .concat =>
    let parts ← arguments.mapM (toText m)
    textValue (parts.foldl (· ++ ·) text)
  | .replace =>
    let part ← toText m (argument arguments 0)
    textValue (← replaced m text part (argument arguments 1) false)
  | .replaceAll =>
    let part ← toText m (argument arguments 0)
    textValue (← replaced m text part (argument arguments 1) true)
  | .localeCompare =>
    let other ← toText m (argument arguments 0)
    pure (.number (if text.less other then -1.0 else if other.less text then 1.0 else 0.0))
  | .iterator => newIterator (characters text)
  | _ => pure (.text text)

def textFunction (m : Machine) (f : TextFunction) (this : Value) (arguments : List Value) :
    Run Value := do
  match f with
  | .construct => makeText m arguments
  | .fromCharCode =>
    let codes ← arguments.mapM (toNumber m)
    pure (.text ⟨(codes.map fun x => UInt16.ofNat (Numeric.wrap 16 x)).toArray⟩)
  | .indexOf | .lastIndexOf | .includes | .startsWith | .endsWith =>
    searchFunction m f (← thisText m this) arguments
  | .charAt | .charCodeAt | .codePointAt | .at_ | .slice | .substring | .substr =>
    partFunction m f (← thisText m this) arguments
  | .split | .trim | .trimStart | .trimEnd | .toUpperCase | .toLowerCase | .repeat | .padStart
  | .padEnd | .concat | .replace | .replaceAll | .toText | .localeCompare | .iterator =>
    madeFunction m f (← thisText m this) arguments

end Run

end ScriptHooks.Sandbox
