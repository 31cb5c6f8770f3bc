/-
ScriptHooks.Sandbox.Native — the functions and objects that every script finds.

`Intrinsic` names the objects that exist before a script starts; they come first in
the store, in this order. The place of one of them is therefore known without looking
at the world, and its methods are found through it even if a script has given the
global name another value.

The other types name the functions on these objects, by family, with one constructor
for each function. They are names only. What the functions do is in the modules of
`Sandbox.Builtin`, one for each family, and where they are found is in the tables of
`Sandbox.Realm`; so a function that is added is a constructor here, a case there, and
a line in a table.
-/
import ScriptHooks.Sandbox.Units

namespace ScriptHooks.Sandbox

/-- The kinds of error. -/
inductive ErrorKind
  | error | typeError | rangeError | referenceError | syntaxError | evalError | uriError
  | internalError
  deriving DecidableEq

namespace ErrorKind

def all : List ErrorKind :=
  [error, typeError, rangeError, referenceError, syntaxError, evalError, uriError, internalError]

def name : ErrorKind → String
  | error => "Error"
  | typeError => "TypeError"
  | rangeError => "RangeError"
  | referenceError => "ReferenceError"
  | syntaxError => "SyntaxError"
  | evalError => "EvalError"
  | uriError => "URIError"
  | internalError => "InternalError"

def index (kind : ErrorKind) : Nat := all.idxOf kind

end ErrorKind

abbrev Ref := Nat

/-- The objects that exist before a script starts. -/
inductive Intrinsic
  | global
  | objectProto
  | functionProto
  | arrayProto
  | textProto
  | numberProto
  | boolProto
  | symbolProto
  | bigintProto
  | dateProto
  | mapProto
  | setProto
  | regexProto
  | iteratorProto
  | json
  | math
  | errorProto (kind : ErrorKind)
  deriving DecidableEq

def Intrinsic.ref : Intrinsic → Ref
  | global => 0
  | objectProto => 1
  | functionProto => 2
  | arrayProto => 3
  | textProto => 4
  | numberProto => 5
  | boolProto => 6
  | symbolProto => 7
  | bigintProto => 8
  | dateProto => 9
  | mapProto => 10
  | setProto => 11
  | regexProto => 12
  | iteratorProto => 13
  | json => 14
  | math => 15
  | errorProto kind => 16 + kind.index

/-- Functions of `Object`, and those that all objects have. -/
inductive ObjectFunction
  | construct | keys | values | entries | create | defineProperty | defineProperties
  | freeze | isFrozen | seal | isSealed | preventExtensions | isExtensible
  | assign | getOwnPropertyNames | getOwnPropertyDescriptor | getPrototypeOf | setPrototypeOf
  | is | fromEntries | hasOwn
  | hasOwnProperty | toText | toLocaleText | valueOf | isPrototypeOf | propertyIsEnumerable
  | getProto | setProto
  deriving DecidableEq

/-- Functions that all functions have. -/
inductive FunctionFunction
  | self | call | apply | bind | toText
  deriving DecidableEq

/-- Functions of `Array`, and those that all arrays have. -/
inductive ArrayFunction
  | construct | isArray | of_ | from_
  | push | pop | shift | unshift | slice | splice | concat | join | reverse
  | indexOf | lastIndexOf | includes | find | findIndex | filter | map | forEach
  | some | every | reduce | reduceRight | sort | flat | flatMap | fill | at_ | toText
  | keys | values | entries
  deriving DecidableEq

/-- Functions of `String`, and those that all texts have. -/
inductive TextFunction
  | construct | fromCharCode
  | charAt | charCodeAt | codePointAt | at_ | indexOf | lastIndexOf | includes
  | startsWith | endsWith | slice | substring | substr | split | trim | trimStart | trimEnd
  | toUpperCase | toLowerCase | repeat | padStart | padEnd | concat | replace | replaceAll
  | toText | localeCompare | iterator
  deriving DecidableEq

/-- Functions of numbers, truth values, symbols and large integers. -/
inductive ScalarFunction
  | number | isInteger | isSafeInteger | isFinite | isNaN | parseInt | parseFloat
  | globalIsFinite | globalIsNaN
  | numberToText | numberToFixed | numberValue
  | bool | boolToText | boolValue
  | symbol | symbolToText | symbolValue | symbolDescription
  | bigint | bigintToText | bigintValue
  deriving DecidableEq

/-- Functions of `Math`. -/
inductive MathFunction
  | abs | ceil | floor | round | trunc | sign | sqrt | max | min | pow
  deriving DecidableEq

/-- Functions of dates. -/
inductive DateFunction
  | construct | utc | getTime | setTime | valueOf | toISOText | toJson | toText
  | getFullYear | getMonth | getDate | getDay | getHours | getMinutes | getSeconds
  | getMilliseconds | getTimezoneOffset
  deriving DecidableEq

/-- Functions of maps and sets. -/
inductive CollectionFunction
  | constructMap | constructSet | get | set | has | add | delete | clear | size | forEach
  | keys | values | entries
  deriving DecidableEq

/-- Functions of regular expressions. -/
inductive RegexFunction
  | construct | toText | source | flags
  deriving DecidableEq

/-- Functions of `JSON`. -/
inductive JsonFunction
  | parse | stringify
  deriving DecidableEq

/-- Functions that the host gives to scripts. -/
inductive HostFunction
  | logInfo | logWarn | logError
  | jsonStringify | jsonParse
  | httpGet | httpHead | httpDelete | httpPost | httpPut | httpPatch | httpPostJson
  | httpPostForm | httpPostMultipart | httpPostFileAndSave | httpGetAndSave
  | md5 | hmacSha256 | base64UrlSafe | formatDateTime
  deriving DecidableEq

/-- The functions that are not written in a script. -/
inductive Native
  | object (f : ObjectFunction)
  | function (f : FunctionFunction)
  | array (f : ArrayFunction)
  | text (f : TextFunction)
  | scalar (f : ScalarFunction)
  | math (f : MathFunction)
  | date (f : DateFunction)
  | collection (f : CollectionFunction)
  | regex (f : RegexFunction)
  | json (f : JsonFunction)
  | error (kind : ErrorKind)
  | errorToText
  /-- The next item of a list of items. -/
  | nextItem
  /-- An iterator, given back as it is. -/
  | selfIterator
  | host (f : HostFunction)
  deriving DecidableEq

end ScriptHooks.Sandbox
