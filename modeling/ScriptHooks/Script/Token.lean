/-
ScriptHooks.Script.Token — the tokens of a script.

A token has a kind, a position, and whether a line ends between it and the token
before: a semicolon may be left out there, and some jumps end there.

A template literal is one token and carries the token lists of its substitutions,
each ended by its own end token. So the parser reads a substitution like a program
of its own, and tokens nest.

Words are one kind of token; whether a word is a keyword is for the parser to say,
since a keyword may be the name of a property. Strings keep their value, as they may
name a property too; numbers and regular expressions keep nothing.
-/
import ScriptHooks.Script.Issue

namespace ScriptHooks.Script

mutual

/-- A token: what it is, where it starts, and whether a line ends before it. -/
inductive Token
  | mk (kind : TokenKind) (position : Position) (newlineBefore : Bool)

/-- What a token is. -/
inductive TokenKind
  | word (name : String)
  | number
  | string (value : String)
  | template (substitutions : List (List Token))
  | regex
  | punct (text : String)
  | eof

end

instance : Inhabited TokenKind := ⟨.eof⟩

namespace Token

def kind : Token → TokenKind
  | mk kind _ _ => kind

def position : Token → Position
  | mk _ position _ => position

def newlineBefore : Token → Bool
  | mk _ _ newlineBefore => newlineBefore

def isMark (token : Token) (text : String) : Bool :=
  match token.kind with
  | .punct p => p == text
  | _ => false

def isWord (token : Token) (name : String) : Bool :=
  match token.kind with
  | .word w => w == name
  | _ => false

def word? (token : Token) : Option String :=
  match token.kind with
  | .word w => some w
  | _ => none

def isEof (token : Token) : Bool :=
  match token.kind with
  | .eof => true
  | _ => false

def describe (token : Token) : String :=
  match token.kind with
  | .word name => "'" ++ name ++ "'"
  | .punct text => "'" ++ text ++ "'"
  | .number => "number"
  | .string _ => "string"
  | .template _ => "template literal"
  | .regex => "regular expression"
  | .eof => "end of input"

end Token

instance : Inhabited Token := ⟨.mk .eof .absent false⟩

end ScriptHooks.Script
