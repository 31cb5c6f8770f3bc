/-
ScriptHooks.Sandbox.Realm — the world that every script starts in.

The tables say which functions there are, where they are found and how many parameters
they say they have; `realm` is the world that holds them. It is made once and is the
same for every call: a script can change it only for itself, since each session starts
from it anew.

The host's own globals come last, in objects that are closed, so that a script can
neither take a function out of them nor put another one in. `bareRealm` is the world
without them, in which a source is checked for whether it can be compiled.
-/
import ScriptHooks.Sandbox.Builtin.Collections
import ScriptHooks.Sandbox.Builtin.Dates
import ScriptHooks.Sandbox.Builtin.Host
import ScriptHooks.Sandbox.Builtin.Objects
import ScriptHooks.Sandbox.Builtin.Scalars

namespace ScriptHooks.Sandbox

/-! ## Calls -/

namespace Native

/-- Call a function that is not written in a script. -/
def call (m : Machine) (f : Native) (this : Value) (arguments : List Value) : Run Value :=
  match f with
  | .object f => Run.objectFunction m f this arguments
  | .function f => Run.functionFunction m f this arguments
  | .array f => Run.arrayFunction m f this arguments
  | .text f => Run.textFunction m f this arguments
  | .scalar f => Run.scalarFunction m f this arguments
  | .math f => Run.mathFunction m f arguments
  | .date f => Run.dateFunction m f this arguments
  | .collection f => Run.collectionFunction m f this arguments
  | .regex f => Run.regexFunction m f this arguments
  | .json f => Run.jsonFunction m f arguments
  | .error kind => Run.makeError m kind arguments
  | .errorToText => Run.errorText m this
  | .nextItem => Run.nextOf this
  | .selfIterator => pure this
  | .host f => Run.hostFunction m f arguments

/-- Whether objects can be made with the function. -/
def isConstructor (f : Native) : Bool :=
  match f with
  | .object .construct | .array .construct | .text .construct | .scalar .number
  | .scalar .bool | .date .construct | .collection .constructMap | .collection .constructSet
  | .regex .construct | .error _ => true
  | _ => false

/-- Make an object with a function that is not written in a script. -/
def construct (m : Machine) (f : Native) (arguments : List Value) : Run Value := do
  match f with
  | .text .construct | .scalar .number | .scalar .bool =>
    pure (.object (← Run.toObject (← f.call m .undefined arguments)))
  | .date .construct => Run.makeDate m arguments
  | .collection .constructMap => Run.makeMap m arguments
  | .collection .constructSet => Run.makeSet m arguments
  | _ =>
    if f.isConstructor then f.call m .undefined arguments
    else Run.typeError "not a constructor"

end Native

/-! ## Tables -/

/-- A function where it is found: its name, and how many parameters it says it has. -/
structure Method where
  name : String
  function : Native
  arity : Nat

def methods (family : α → Native) (table : List (String × α × Nat)) : List Method :=
  table.map fun (name, f, arity) => ⟨name, family f, arity⟩

/-- A function that makes objects, with its own functions and those of what it makes. -/
structure Constructor where
  method : Method
  proto : Intrinsic
  statics : List Method := []
  methods : List Method := []

def objectConstructor : Constructor where
  method := ⟨"Object", .object .construct, 1⟩
  proto := .objectProto
  statics := methods .object [("keys", .keys, 1), ("values", .values, 1),
    ("entries", .entries, 1), ("create", .create, 2), ("defineProperty", .defineProperty, 3),
    ("defineProperties", .defineProperties, 2), ("freeze", .freeze, 1),
    ("isFrozen", .isFrozen, 1), ("seal", .seal, 1), ("isSealed", .isSealed, 1),
    ("preventExtensions", .preventExtensions, 1), ("isExtensible", .isExtensible, 1),
    ("assign", .assign, 2), ("getOwnPropertyNames", .getOwnPropertyNames, 1),
    ("getOwnPropertyDescriptor", .getOwnPropertyDescriptor, 2),
    ("getPrototypeOf", .getPrototypeOf, 1), ("setPrototypeOf", .setPrototypeOf, 2),
    ("is", .is, 2), ("fromEntries", .fromEntries, 1), ("hasOwn", .hasOwn, 2)]
  methods := methods .object [("hasOwnProperty", .hasOwnProperty, 1), ("toString", .toText, 0),
    ("toLocaleString", .toLocaleText, 0), ("valueOf", .valueOf, 0),
    ("isPrototypeOf", .isPrototypeOf, 1), ("propertyIsEnumerable", .propertyIsEnumerable, 1)]

def functionMethods : List Method :=
  methods .function [("call", .call, 1), ("apply", .apply, 2), ("bind", .bind, 1),
    ("toString", .toText, 0)]

def arrayConstructor : Constructor where
  method := ⟨"Array", .array .construct, 1⟩
  proto := .arrayProto
  statics := methods .array [("isArray", .isArray, 1), ("of", .of_, 0), ("from", .from_, 1)]
  methods := methods .array [("push", .push, 1), ("pop", .pop, 0), ("shift", .shift, 0),
    ("unshift", .unshift, 1), ("slice", .slice, 2), ("splice", .splice, 2),
    ("concat", .concat, 1), ("join", .join, 1), ("reverse", .reverse, 0),
    ("indexOf", .indexOf, 1), ("lastIndexOf", .lastIndexOf, 1), ("includes", .includes, 1),
    ("find", .find, 1), ("findIndex", .findIndex, 1), ("filter", .filter, 1), ("map", .map, 1),
    ("forEach", .forEach, 1), ("some", .some, 1), ("every", .every, 1), ("reduce", .reduce, 1),
    ("reduceRight", .reduceRight, 1), ("sort", .sort, 1), ("flat", .flat, 0),
    ("flatMap", .flatMap, 1), ("fill", .fill, 1), ("at", .at_, 1), ("toString", .toText, 0),
    ("keys", .keys, 0), ("values", .values, 0), ("entries", .entries, 0)]

def textConstructor : Constructor where
  method := ⟨"String", .text .construct, 1⟩
  proto := .textProto
  statics := methods .text [("fromCharCode", .fromCharCode, 1)]
  methods := methods .text [("charAt", .charAt, 1), ("charCodeAt", .charCodeAt, 1),
    ("codePointAt", .codePointAt, 1), ("at", .at_, 1), ("indexOf", .indexOf, 1),
    ("lastIndexOf", .lastIndexOf, 1), ("includes", .includes, 1),
    ("startsWith", .startsWith, 1), ("endsWith", .endsWith, 1), ("slice", .slice, 2),
    ("substring", .substring, 2), ("substr", .substr, 2), ("split", .split, 2),
    ("trim", .trim, 0), ("trimStart", .trimStart, 0), ("trimEnd", .trimEnd, 0),
    ("toUpperCase", .toUpperCase, 0), ("toLowerCase", .toLowerCase, 0),
    ("repeat", .repeat, 1), ("padStart", .padStart, 1), ("padEnd", .padEnd, 1),
    ("concat", .concat, 1), ("replace", .replace, 2), ("replaceAll", .replaceAll, 2),
    ("toString", .toText, 0), ("valueOf", .toText, 0), ("localeCompare", .localeCompare, 1)]

/-- `Number`, `Boolean`, `Symbol` and `BigInt`. -/
def scalarConstructors : List Constructor := [
  { method := ⟨"Number", .scalar .number, 1⟩
    proto := .numberProto
    statics := methods .scalar [("isInteger", .isInteger, 1),
      ("isSafeInteger", .isSafeInteger, 1), ("isFinite", .isFinite, 1), ("isNaN", .isNaN, 1),
      ("parseInt", .parseInt, 2), ("parseFloat", .parseFloat, 1)]
    methods := methods .scalar [("toString", .numberToText, 1), ("toFixed", .numberToFixed, 1),
      ("valueOf", .numberValue, 0)] },
  { method := ⟨"Boolean", .scalar .bool, 1⟩
    proto := .boolProto
    methods := methods .scalar [("toString", .boolToText, 0), ("valueOf", .boolValue, 0)] },
  { method := ⟨"Symbol", .scalar .symbol, 0⟩
    proto := .symbolProto
    methods := methods .scalar [("toString", .symbolToText, 0), ("valueOf", .symbolValue, 0)] },
  { method := ⟨"BigInt", .scalar .bigint, 1⟩
    proto := .bigintProto
    methods := methods .scalar [("toString", .bigintToText, 0), ("valueOf", .bigintValue, 0)] }]

def dateConstructor : Constructor where
  method := ⟨"Date", .date .construct, 7⟩
  proto := .dateProto
  statics := methods .date [("UTC", .utc, 7)]
  methods := methods .date [("getTime", .getTime, 0), ("setTime", .setTime, 1),
    ("valueOf", .valueOf, 0), ("toISOString", .toISOText, 0), ("toJSON", .toJson, 1),
    ("toString", .toText, 0),
    ("getFullYear", .getFullYear, 0), ("getMonth", .getMonth, 0), ("getDate", .getDate, 0),
    ("getDay", .getDay, 0), ("getHours", .getHours, 0), ("getMinutes", .getMinutes, 0),
    ("getSeconds", .getSeconds, 0), ("getMilliseconds", .getMilliseconds, 0),
    ("getUTCFullYear", .getFullYear, 0), ("getUTCMonth", .getMonth, 0),
    ("getUTCDate", .getDate, 0), ("getUTCDay", .getDay, 0), ("getUTCHours", .getHours, 0),
    ("getUTCMinutes", .getMinutes, 0), ("getUTCSeconds", .getSeconds, 0),
    ("getUTCMilliseconds", .getMilliseconds, 0),
    ("getTimezoneOffset", .getTimezoneOffset, 0)]

/-- `Map`, `Set` and `RegExp`. -/
def collectionConstructors : List Constructor := [
  { method := ⟨"Map", .collection .constructMap, 0⟩
    proto := .mapProto
    methods := methods .collection [("get", .get, 1), ("set", .set, 2), ("has", .has, 1),
      ("delete", .delete, 1), ("clear", .clear, 0), ("forEach", .forEach, 1),
      ("keys", .keys, 0), ("values", .values, 0), ("entries", .entries, 0)] },
  { method := ⟨"Set", .collection .constructSet, 0⟩
    proto := .setProto
    methods := methods .collection [("add", .add, 1), ("has", .has, 1), ("delete", .delete, 1),
      ("clear", .clear, 0), ("forEach", .forEach, 1), ("keys", .values, 0),
      ("values", .values, 0), ("entries", .entries, 0)] },
  { method := ⟨"RegExp", .regex .construct, 2⟩
    proto := .regexProto
    methods := methods .regex [("toString", .toText, 0)] }]

def errorConstructor (kind : ErrorKind) : Constructor where
  method := ⟨kind.name, .error kind, 1⟩
  proto := .errorProto kind
  methods := if kind = .error then [⟨"toString", .errorToText, 0⟩] else []

def constructors : List Constructor :=
  [objectConstructor, arrayConstructor, textConstructor] ++ scalarConstructors
    ++ [dateConstructor] ++ collectionConstructors ++ ErrorKind.all.map errorConstructor

def mathMethods : List Method :=
  methods .math [("abs", .abs, 1), ("ceil", .ceil, 1), ("floor", .floor, 1),
    ("round", .round, 1), ("trunc", .trunc, 1), ("sign", .sign, 1), ("sqrt", .sqrt, 1),
    ("max", .max, 2), ("min", .min, 2), ("pow", .pow, 2)]

def jsonMethods : List Method :=
  methods .json [("parse", .parse, 2), ("stringify", .stringify, 3)]

/-- The functions that are found without an object. -/
def globalMethods : List Method :=
  methods .scalar [("parseInt", .parseInt, 2), ("parseFloat", .parseFloat, 1),
    ("isNaN", .globalIsNaN, 1), ("isFinite", .globalIsFinite, 1)]

def symbolMethods : List (Intrinsic × KnownSymbol × Method) := [
  (.arrayProto, .iterator, ⟨"values", .array .values, 0⟩),
  (.textProto, .iterator, ⟨"[Symbol.iterator]", .text .iterator, 0⟩),
  (.mapProto, .iterator, ⟨"entries", .collection .entries, 0⟩),
  (.setProto, .iterator, ⟨"values", .collection .values, 0⟩),
  (.iteratorProto, .iterator, ⟨"[Symbol.iterator]", .selfIterator, 0⟩)]

/-- Properties that functions read and, some of them, write. -/
def accessors : List (Intrinsic × String × Native × Option Native) := [
  (.objectProto, "__proto__", .object .getProto, some (.object .setProto)),
  (.mapProto, "size", .collection .size, none),
  (.setProto, "size", .collection .size, none),
  (.regexProto, "source", .regex .source, none),
  (.regexProto, "flags", .regex .flags, none),
  (.symbolProto, "description", .scalar .symbolDescription, none)]

/-- The names that texts of objects show for some kinds of object. -/
def kindTags : List (Intrinsic × String) := [(.json, "JSON"), (.math, "Math"),
  (.mapProto, "Map"), (.setProto, "Set"), (.symbolProto, "Symbol"), (.bigintProto, "BigInt")]

def hostObjects : List (String × List Method) := [
  ("log", methods .host [("info", .logInfo, 0), ("warn", .logWarn, 0),
    ("error", .logError, 0)]),
  ("json", methods .host [("stringify", .jsonStringify, 2), ("parse", .jsonParse, 1)]),
  ("simpleHttpClient", methods .host [("get", .httpGet, 2), ("head", .httpHead, 2),
    ("delete", .httpDelete, 2), ("post", .httpPost, 3), ("put", .httpPut, 3),
    ("patch", .httpPatch, 3), ("postJSON", .httpPostJson, 3), ("postForm", .httpPostForm, 3),
    ("postMultipart", .httpPostMultipart, 3),
    ("postFileAndSaveResponse", .httpPostFileAndSave, 3),
    ("getAndSaveResponse", .httpGetAndSave, 2)]),
  ("utils", methods .host [("md5", .md5, 1), ("hmacSha256", .hmacSha256, 2),
    ("base64UrlSafe", .base64UrlSafe, 1), ("formatDateTime", .formatDateTime, 3)])]

/-! ## Building the world -/

namespace Intrinsic

def all : List Intrinsic :=
  [global, objectProto, functionProto, arrayProto, textProto, numberProto, boolProto,
    symbolProto, bigintProto, dateProto, mapProto, setProto, regexProto, iteratorProto, json,
    math] ++ ErrorKind.all.map errorProto

def blank : Intrinsic → Obj
  | .objectProto => { proto := none }
  | .functionProto =>
    { proto := some objectProto.ref, kind := .native (.function .self) }
  | .arrayProto => { proto := some objectProto.ref, kind := .array #[] 0 true }
  | .errorProto .error => { proto := some objectProto.ref }
  | .errorProto _ => { proto := some (errorProto .error).ref }
  | _ => { proto := some objectProto.ref }

end Intrinsic

namespace Run

/-- A property that never changes. -/
def fixedProperty (value : Value) : Property := ⟨.data value false, false, false⟩

/-- A new function that is not written in a script. -/
def newNative (method : Method) (parent : Ref) : Run Ref :=
  allocate {
    proto := some parent
    kind := .native method.function
    properties := #[
      ("length", ⟨.data (Value.ofNat method.arity) false, false, true⟩),
      ("name", ⟨.data (textOf method.name) false, false, true⟩)] }

/-- Put functions into an object, to be changed like any other property or not. -/
def addMethods (ref : Ref) (shape : Value → Property) (table : List Method) : Run Unit :=
  for method in table do
    let f ← newNative method Intrinsic.functionProto.ref
    define ref method.name (shape (.object f))

def addConstructor (constructor : Constructor) : Run Unit := do
  let parent ← match constructor.method.function with
    | .error .error => pure Intrinsic.functionProto.ref
    | .error _ =>
      match (← object Intrinsic.global.ref).own? "Error" with
      | some ⟨.data (.object ref) _, _, _⟩ => pure ref
      | _ => pure Intrinsic.functionProto.ref
    | _ => pure Intrinsic.functionProto.ref
  let ref ← newNative constructor.method parent
  let proto := constructor.proto.ref
  define ref "prototype" (fixedProperty (.object proto))
  define proto "constructor" (.hidden (.object ref))
  addMethods ref .hidden constructor.statics
  addMethods proto .hidden constructor.methods
  define Intrinsic.global.ref constructor.method.name (.hidden (.object ref))

/-- Put the names and messages into the prototypes of errors. -/
def addErrorTexts : Run Unit :=
  for kind in ErrorKind.all do
    let proto := (Intrinsic.errorProto kind).ref
    define proto "name" (.hidden (textOf kind.name))
    define proto "message" (.hidden (textOf ""))

/-- Put in what the tables say about symbols and about properties with functions. -/
def addParts : Run Unit := do
  for (place, symbol, method) in symbolMethods do
    let f ← newNative method Intrinsic.functionProto.ref
    define place.ref symbol.key (.hidden (.object f))
  for (place, name, getter, setter) in accessors do
    let get ← newNative ⟨"get " ++ name, getter, 0⟩ Intrinsic.functionProto.ref
    let set ← match setter with
      | some f =>
        pure (Value.object (← newNative ⟨"set " ++ name, f, 1⟩ Intrinsic.functionProto.ref))
      | none => pure .undefined
    define place.ref name ⟨.accessor (.object get) set, false, true⟩
  for (place, tag) in kindTags do
    define place.ref KnownSymbol.toStringTag.key ⟨.data (textOf tag) false, false, true⟩

/-- Put the known symbols into the constructor of symbols, and the greatest and least
numbers where scripts look for them. -/
def addConstants : Run Unit := do
  let global ← object Intrinsic.global.ref
  match global.own? "Symbol" with
  | some ⟨.data (.object ref) _, _, _⟩ =>
    for symbol in KnownSymbol.all do
      define ref symbol.name (fixedProperty (.symbol symbol.id))
  | _ => pure ()
  match global.own? "Number" with
  | some ⟨.data (.object ref) _, _, _⟩ =>
    define ref "MAX_SAFE_INTEGER" (fixedProperty (.number maxSafe))
    define ref "MIN_SAFE_INTEGER" (fixedProperty (.number (-maxSafe)))
    define ref "MAX_VALUE" (fixedProperty (.number 1.7976931348623157e308))
    define ref "MIN_VALUE" (fixedProperty (.number 5e-324))
    define ref "EPSILON" (fixedProperty (.number 2.220446049250313e-16))
    define ref "NaN" (fixedProperty (.number notANumber))
    define ref "POSITIVE_INFINITY" (fixedProperty (.number infinity))
    define ref "NEGATIVE_INFINITY" (fixedProperty (.number (-infinity)))
  | _ => pure ()
  define Intrinsic.math.ref "PI" (fixedProperty (.number 3.141592653589793))
  define Intrinsic.math.ref "E" (fixedProperty (.number 2.718281828459045))

def addGlobals : Run Unit := do
  let global := Intrinsic.global.ref
  addMethods Intrinsic.functionProto.ref .hidden functionMethods
  addMethods Intrinsic.math.ref .hidden mathMethods
  addMethods Intrinsic.json.ref .hidden jsonMethods
  addMethods Intrinsic.iteratorProto.ref .hidden [⟨"next", .nextItem, 0⟩]
  addMethods global .hidden globalMethods
  define global "Math" (.hidden (.object Intrinsic.math.ref))
  define global "JSON" (.hidden (.object Intrinsic.json.ref))
  define global "globalThis" (.hidden (.object global))
  define global "NaN" (fixedProperty (.number notANumber))
  define global "Infinity" (fixedProperty (.number infinity))
  define global "undefined" (fixedProperty .undefined)

/-- Put the host's objects among the globals. -/
def addHostObjects : Run Unit :=
  for (name, table) in hostObjects do
    let ref ← newObject
    addMethods ref .plain table
    change ref (·.close true)
    define Intrinsic.global.ref name (.plain (.object ref))

/-- All that scripts find, but for what the host gives them. -/
def addAll : Run Unit := do
  constructors.forM addConstructor
  addErrorTexts
  addParts
  addConstants
  addGlobals

end Run

def isolated : HostAccess where
  context := ⟨"", "", ""⟩
  send := fun request _ => .error ⟨.denied, request.url⟩

def World.after (world : World) (act : Run Unit) : World :=
  match act.run world with
  | .ok _ changed => changed
  | .error _ changed => changed

def bareRealm : World :=
  let blank : World := {
    host := isolated
    objects := (Intrinsic.all.map Intrinsic.blank).toArray
    symbols := (KnownSymbol.all.map fun symbol =>
      some (Units.ofString ("Symbol." ++ symbol.name))).toArray
    budget := 0 }
  blank.after Run.addAll

def realm : World := bareRealm.after Run.addHostObjects

end ScriptHooks.Sandbox
