/-
ScriptHooks.Proofs.Script.Spelling — which tokens spell which syntax tree.

The parser is proved right against a grammar that it does not share a definition with. There are
two layers:

* `Rule` is the grammar of scripts, one constructor for each production, free of the parser's
  state: `Rule x body` says that the symbol `x` can be written as the symbols `body`. A symbol
  carries the piece of the tree that it stands for, so a derivation fixes the tree.
* `Spells symbols tokens readings rest` says that the tokens, up to `rest`, spell the symbols;
  `readings` lists every token taken, those of template substitutions included, with what it is
  read as (`Role`).

A role says what a word is in the text: a name that is bound or mentioned, a property, a label, a
keyword, an operator. `Role.admits` is the condition on the word that the role sets, and
`Spells.admitted` the first result: every reading of a spelling satisfies it. Where a `for` loop
stands, or a keyword, is read off the roles, and no theorem about keywords looks into the parser.

The grammar says more than the tree and less than the parser: precedence, the places where `in` is
no operator and the bounds on depth are left out, and a semicolon may be missing only where the
text allows it (`Token.endsStatement`). What precedence adds is the subject of `OperatorTrees`.

A template is one token of the list outside. Its substitutions are lists of tokens that each spell
one expression, with an end token behind (`Piece`); the readings of a template are its own, as a
constant, and those of its pieces.
-/
import ScriptHooks.Script.Parser

namespace ScriptHooks.Script

/-! ## Readings -/

/-- What a token is read as. -/
inductive Role
  /-- A word with a meaning of its own in its place. -/
  | keyword
  /-- The `while` that ends the `do` loop that starts there. -/
  | loopEnd (start : Position)
  /-- A word that names a variable, a function or a label, also as a bare property. -/
  | name
  /-- A property name after a point. -/
  | member
  /-- A word before the value of a property, or before the parameters of a method. -/
  | key
  /-- A punctuator. -/
  | mark
  /-- A number, text, regular expression or template. -/
  | value
  /-- The end of a substitution. -/
  | stop
  deriving Repr, DecidableEq

/-- Whether a word that does not follow a point can be read so. -/
def Role.admits (role : Role) (word : String) : Bool :=
  match role with
  | keyword => true
  | loopEnd _ => word == "while"
  | name => !isReservedWord word
  | key => true
  | _ => false

/-- A token and what it is read as. -/
structure Reading where
  token : Token
  role : Role

/-- The two points after which a property name stands. -/
def isPoint (text : String) : Bool := text == "." || text == "?."

/-- Whether the semicolon before this token may be left out. -/
def Token.endsStatement (token : Token) : Bool :=
  token.isMark "\x7d" || token.isEof || token.newlineBefore

def Token.isConstant (token : Token) : Bool :=
  match token.kind with
  | .number => true
  | .string _ => true
  | _ => false

def Token.isRegex (token : Token) : Bool :=
  match token.kind with
  | .regex => true
  | _ => false

/-- The token lists of the substitutions, if the token is a template. -/
def Token.parts (token : Token) : List (List Token) :=
  match token.kind with
  | .template parts => parts
  | _ => []

/-- The token neither ends its list nor holds others. -/
structure Token.Single (token : Token) : Prop where
  notEof : token.isEof = false
  noParts : token.parts = []

namespace Token

/-- The end token. -/
theorem isEof_iff {t : Token} : t.isEof = true ↔ t.kind = .eof := by
  unfold isEof
  split <;> simp_all

theorem isRegex_iff {t : Token} : t.isRegex = true ↔ t.kind = .regex := by
  unfold isRegex
  split <;> simp_all

/-- Marks. -/
theorem isMark_iff {t : Token} : t.isMark text = true ↔ t.kind = .punct text := by
  unfold isMark
  split <;> simp_all

/-- Words, reserved or not. -/
theorem word?_iff {t : Token} : t.word? = some n ↔ t.kind = .word n := by
  unfold word?
  split <;> simp_all

theorem isWord_iff {t : Token} : t.isWord n = true ↔ t.word? = some n := by
  cases t with
  | mk kind p newline => cases kind <;> simp [isWord, word?, kind]

/-- A name is a word that is not reserved. -/
theorem word_of_isName {t : Token} (h : t.isName = true) :
    ∃ n, t.word? = some n ∧ isReservedWord n = false := by
  simpa [isName, Option.any_eq_true] using h

/-- Only templates have substitutions. -/
theorem parts_eq_nil {t : Token} (h : ∀ parts, t.kind ≠ .template parts) : t.parts = [] := by
  unfold parts
  split <;> simp_all

theorem single_of_isMark {t : Token} (h : t.isMark text = true) : t.Single := by
  have hk := isMark_iff.mp h
  exact ⟨by simp [isEof, hk], by simp [parts, hk]⟩

/-- A word is a token on its own. -/
theorem single_of_word {t : Token} (h : t.word? = some n) : t.Single := by
  have hk := word?_iff.mp h
  exact ⟨by simp [isEof, hk], by simp [parts, hk]⟩

theorem single_of_isRegex {t : Token} (h : t.isRegex = true) : t.Single := by
  have hk := isRegex_iff.mp h
  exact ⟨by simp [isEof, hk], by simp [parts, hk]⟩

/-- So is a constant; templates are not among the constants. -/
theorem single_of_isConstant {t : Token} (h : t.isConstant = true) : t.Single := by
  unfold isConstant at h
  constructor
  · unfold isEof
    split <;> simp_all
  · unfold parts
    split <;> simp_all

theorem word_of_isMark {t : Token} (h : t.isMark text = true) : t.word? = none := by
  simp [word?, isMark_iff.mp h]

theorem word_of_isRegex {t : Token} (h : t.isRegex = true) : t.word? = none := by
  simp [word?, isRegex_iff.mp h]

theorem word_of_isEof {t : Token} (h : t.isEof = true) : t.word? = none := by
  simp [word?, isEof_iff.mp h]

/-- A constant is no word. -/
theorem word_of_isConstant {t : Token} (h : t.isConstant = true) : t.word? = none := by
  unfold isConstant at h
  unfold word?
  split <;> simp_all

end Token

def VarKind.word : VarKind → String
  | var => "var"
  | let_ => "let"
  | const => "const"

/-! ## The grammar -/

/-- The symbols of the grammar. Those up to `omitted` are tokens, or say something
about the next one. -/
inductive Symbol
  | mark (text : String)
  | word (name : String) (position : Position) (role : Role)
  /-- A point and the property name after it. -/
  | access (name : String)
  /-- A point for optional chains and the bracket after it. -/
  | optional (text : String)
  /-- A number or a text. -/
  | constant
  | regex
  | template (parts : List Expr)
  /-- A semicolon that is left out. -/
  | omitted
  | semicolon
  | expr (expr : Expr)
  /-- Expressions that each follow a comma. -/
  | more (exprs : List Expr)
  /-- An expression, spread or not. -/
  | item (expr : Expr)
  /-- Items between commas, and the mark that closes them. -/
  | items (close : String) (exprs : List Expr)
  | option (expr : Option Expr)
  | key (key : PropertyKey)
  | property (property : Property)
  | properties (properties : List Property)
  | function (function : Function)
  /-- Parameters in brackets and a body. -/
  | signature (parameters : List Expr) (body : List Stmt)
  | arrowBody (body : List Stmt)
  | declarator (declarator : Declarator)
  | declarators (declarators : List Declarator)
  /-- Declarators after their keyword. -/
  | variables (kind : VarKind) (declarators : List Declarator)
  | head (head : ForHead)
  | init (head : Option ForHead)
  | block (body : List Stmt)
  | stmts (body : List Stmt)
  | stmt (stmt : Stmt)
  | handler (handler : Option CatchClause)
  | clause (clause : CatchClause)
  | finalizer (body : Option (List Stmt))
  | test (test : Option Expr)
  | cases (cases : List SwitchCase)

/-- The productions of the grammar. -/
inductive Rule : Symbol → List Symbol → Prop
  | semicolonMark : Rule .semicolon [.mark ";"]
  | semicolonOmitted : Rule .semicolon [.omitted]
  -- Operands
  | name : Rule (.expr (.ident n p)) [.word n p .name]
  | plainWord (h : n ∈ ["this", "null", "true", "false"]) :
      Rule (.expr .literal) [.word n p .keyword]
  | constant : Rule (.expr .literal) [.constant]
  | regex : Rule (.expr .literal) [.regex]
  | template : Rule (.expr (.template es)) [.template es]
  | group : Rule (.expr e) [.mark "(", .expr e, .mark ")"]
  | array : Rule (.expr (.array es)) [.mark "[", .items "]" es]
  | object : Rule (.expr (.object ps p)) [.mark "\x7b", .properties ps]
  | function : Rule (.expr (.function f)) [.function f]
  | arrowOne : Rule (.expr (.function (.mk none [.ident n p] body true p)))
      [.word n p .name, .mark "=>", .arrowBody body]
  | arrowMany : Rule (.expr (.function (.mk none ps body true p)))
      [.mark "(", .items ")" ps, .mark "=>", .arrowBody body]
  -- Chains
  | member : Rule (.expr (.member e n)) [.expr e, .access n]
  | index : Rule (.expr (.index e i)) [.expr e, .mark "[", .expr i, .mark "]"]
  | indexOptional : Rule (.expr (.index e i)) [.expr e, .optional "[", .expr i, .mark "]"]
  | call : Rule (.expr (.call e es false p)) [.expr e, .mark "(", .items ")" es]
  | callOptional : Rule (.expr (.call e es false p)) [.expr e, .optional "(", .items ")" es]
  | callTemplate : Rule (.expr (.call e [.template es] false p)) [.expr e, .template es]
  | new : Rule (.expr (.call e es true p))
      [.word "new" p .keyword, .expr e, .mark "(", .items ")" es]
  | newBare : Rule (.expr (.call e [] true p)) [.word "new" p .keyword, .expr e]
  -- Operators
  | prefixMark : Rule (.expr (.unary op e)) [.mark op, .expr e]
  | prefixWord (h : op ∈ ["typeof", "void", "delete"]) :
      Rule (.expr (.unary op e)) [.word op p .keyword, .expr e]
  | postfixMark : Rule (.expr (.unary op e)) [.expr e, .mark op]
  | binaryMark : Rule (.expr (.binary op l r)) [.expr l, .mark op, .expr r]
  | binaryWord (h : op ∈ ["in", "instanceof"]) :
      Rule (.expr (.binary op l r)) [.expr l, .word op p .keyword, .expr r]
  | conditional : Rule (.expr (.conditional t c a))
      [.expr t, .mark "?", .expr c, .mark ":", .expr a]
  | sequence : Rule (.expr (.sequence (e :: d :: es))) [.expr e, .more (d :: es)]
  | moreEnd : Rule (.more []) []
  | moreNext : Rule (.more (e :: es)) [.mark ",", .expr e, .more es]
  -- Lists of items
  | itemSpread : Rule (.item (.spread e)) [.mark "...", .expr e]
  | itemPlain : Rule (.item e) [.expr e]
  | itemsEnd : Rule (.items close []) [.mark close]
  | itemsHole : Rule (.items close es) [.mark ",", .items close es]
  | itemsLast : Rule (.items close [e]) [.item e, .mark close]
  | itemsNext : Rule (.items close (e :: es)) [.item e, .mark ",", .items close es]
  | optionNone : Rule (.option none) []
  | optionSome : Rule (.option (some e)) [.expr e]
  -- Objects
  | keyWord : Rule (.key (.named n)) [.word n p .key]
  | keyText : Rule (.key (.named n)) [.constant]
  | keyNumber : Rule (.key (.computed .literal)) [.constant]
  | keyComputed : Rule (.key (.computed e)) [.mark "[", .expr e, .mark "]"]
  | propertySpread : Rule (.property (.spread e)) [.mark "...", .expr e]
  | keyValue : Rule (.property (.keyValue k e)) [.key k, .mark ":", .expr e]
  | method : Rule (.property (.method k (.mk n ps body false p))) [.key k, .signature ps body]
  | accessor (h : w ∈ ["get", "set"]) : Rule (.property (.method k (.mk none ps body false p)))
      [.word w p .keyword, .key k, .signature ps body]
  | shorthand : Rule (.property (.shorthand n p none)) [.word n p .name]
  | shorthandDefault : Rule (.property (.shorthand n p (some e)))
      [.word n p .name, .mark "=", .expr e]
  | propertiesEnd : Rule (.properties []) [.mark "\x7d"]
  | propertiesLast : Rule (.properties [q]) [.property q, .mark "\x7d"]
  | propertiesNext : Rule (.properties (q :: qs)) [.property q, .mark ",", .properties qs]
  -- Functions
  | functionNamed : Rule (.function (.mk (some n) ps body false p))
      [.word "function" p .keyword, .word n q .name, .signature ps body]
  | functionBare : Rule (.function (.mk none ps body false p))
      [.word "function" p .keyword, .signature ps body]
  | signature : Rule (.signature ps body) [.mark "(", .items ")" ps, .block body]
  | arrowBlock : Rule (.arrowBody body) [.block body]
  | arrowValue : Rule (.arrowBody [.return_ (some e)]) [.expr e]
  -- Declarations
  | declaratorBare : Rule (.declarator (.mk e none)) [.expr e]
  | declaratorInit : Rule (.declarator (.mk e (some i))) [.expr e, .mark "=", .expr i]
  | declaratorsLast : Rule (.declarators [d]) [.declarator d]
  | declaratorsNext : Rule (.declarators (d :: ds)) [.declarator d, .mark ",", .declarators ds]
  | variables : Rule (.variables kind ds) [.word kind.word p .keyword, .declarators ds]
  | headVariables : Rule (.head (.declare kind ds)) [.variables kind ds]
  | headExpr : Rule (.head (.expr e)) [.expr e]
  | initNone : Rule (.init none) []
  | initSome : Rule (.init (some h)) [.head h]
  -- Statements
  | block : Rule (.block body) [.mark "\x7b", .stmts body, .mark "\x7d"]
  | stmtsEnd : Rule (.stmts []) []
  | stmtsNext : Rule (.stmts (s :: ss)) [.stmt s, .stmts ss]
  | declare : Rule (.stmt (.declare kind ds)) [.variables kind ds, .semicolon]
  | declareFunction : Rule (.stmt (.function f)) [.function f]
  | expression : Rule (.stmt (.expr e)) [.expr e, .semicolon]
  | blockStmt : Rule (.stmt (.block body)) [.block body]
  | if_ : Rule (.stmt (.if_ e c none))
      [.word "if" p .keyword, .mark "(", .expr e, .mark ")", .stmt c]
  | ifElse : Rule (.stmt (.if_ e c (some a)))
      [.word "if" p .keyword, .mark "(", .expr e, .mark ")", .stmt c, .word "else" q .keyword,
        .stmt a]
  | for_ : Rule (.stmt (.for_ init t u body))
      [.word "for" p .keyword, .mark "(", .init init, .mark ";", .option t, .mark ";", .option u,
        .mark ")", .stmt body]
  | forIn (h : w ∈ ["in", "of"]) : Rule (.stmt (.forIn head e body))
      [.word "for" p .keyword, .mark "(", .head head, .word w q .keyword, .expr e, .mark ")",
        .stmt body]
  | while_ : Rule (.stmt (.while_ e body p))
      [.word "while" p .keyword, .mark "(", .expr e, .mark ")", .stmt body]
  | doWhile : Rule (.stmt (.doWhile body e p))
      [.word "do" p .keyword, .stmt body, .word "while" q (.loopEnd p), .mark "(", .expr e,
        .mark ")"]
  | doWhileMark : Rule (.stmt (.doWhile body e p))
      [.word "do" p .keyword, .stmt body, .word "while" q (.loopEnd p), .mark "(", .expr e,
        .mark ")", .mark ";"]
  | with_ : Rule (.stmt (.with_ e body p))
      [.word "with" p .keyword, .mark "(", .expr e, .mark ")", .stmt body]
  | labeled : Rule (.stmt (.labeled n body p)) [.word n p .name, .mark ":", .stmt body]
  | break_ : Rule (.stmt (.break_ none p)) [.word "break" p .keyword, .semicolon]
  | breakLabel : Rule (.stmt (.break_ (some n) p))
      [.word "break" p .keyword, .word n q .name, .semicolon]
  | continue_ : Rule (.stmt (.continue_ none p)) [.word "continue" p .keyword, .semicolon]
  | continueLabel : Rule (.stmt (.continue_ (some n) p))
      [.word "continue" p .keyword, .word n q .name, .semicolon]
  | return_ : Rule (.stmt (.return_ e)) [.word "return" p .keyword, .option e, .semicolon]
  | throw_ : Rule (.stmt (.throw_ e)) [.word "throw" p .keyword, .expr e, .semicolon]
  | try_ : Rule (.stmt (.try_ body handler finalizer))
      [.word "try" p .keyword, .block body, .handler handler, .finalizer finalizer]
  | switch : Rule (.stmt (.switch e ks))
      [.word "switch" p .keyword, .mark "(", .expr e, .mark ")", .mark "\x7b", .cases ks]
  | emptyMark : Rule (.stmt .empty) [.mark ";"]
  | debugger : Rule (.stmt .empty) [.word "debugger" p .keyword, .semicolon]
  | handlerNone : Rule (.handler none) []
  | handlerSome : Rule (.handler (some k)) [.word "catch" p .keyword, .clause k]
  | clauseBare : Rule (.clause (.mk none body)) [.block body]
  | clauseBound : Rule (.clause (.mk (some e) body))
      [.mark "(", .expr e, .mark ")", .block body]
  | finalizerNone : Rule (.finalizer none) []
  | finalizerSome : Rule (.finalizer (some body)) [.word "finally" p .keyword, .block body]
  | testSome : Rule (.test (some e)) [.word "case" p .keyword, .expr e]
  | testNone : Rule (.test none) [.word "default" p .keyword]
  | casesEnd : Rule (.cases []) [.mark "\x7d"]
  | casesNext : Rule (.cases (.mk t body :: ks))
      [.test t, .mark ":", .stmts body, .cases ks]

/-! ## Spelling -/

/-- A substitution of a template: its tokens, the expression they spell, how they
are read and what is left of them. -/
structure Piece where
  tokens : List Token
  expr : Expr
  readings : List Reading
  rest : List Token

/-- The readings of a substitution, its end token included. -/
def Piece.all (piece : Piece) : List Reading :=
  piece.readings ++ [⟨piece.rest.headD default, .stop⟩]

/-- The symbols are spelled by the tokens up to `rest`; the readings are those of all
tokens taken, with the tokens of a substitution after its template. -/
inductive Spells : List Symbol → List Token → List Reading → List Token → Prop
  | nil : Spells [] ts [] ts
  | mark (ht : t.isMark text = true) (hp : isPoint text = false) (h : Spells σ ts rs rest) :
      Spells (.mark text :: σ) (t :: ts) (⟨t, .mark⟩ :: rs) rest
  | word (ht : t.word? = some n) (hr : role.admits n = true) (h : Spells σ ts rs rest) :
      Spells (.word n t.position role :: σ) (t :: ts) (⟨t, role⟩ :: rs) rest
  | access (ht : t.isMark text = true) (hp : isPoint text = true) (hu : u.word? = some n)
      (h : Spells σ ts rs rest) :
      Spells (.access n :: σ) (t :: u :: ts) (⟨t, .mark⟩ :: ⟨u, .member⟩ :: rs) rest
  | optional (ht : t.isMark "?." = true) (hu : u.isMark text = true)
      (hp : isPoint text = false) (h : Spells σ ts rs rest) :
      Spells (.optional text :: σ) (t :: u :: ts) (⟨t, .mark⟩ :: ⟨u, .mark⟩ :: rs) rest
  | constant (ht : t.isConstant = true) (h : Spells σ ts rs rest) :
      Spells (.constant :: σ) (t :: ts) (⟨t, .value⟩ :: rs) rest
  | regex (ht : t.isRegex = true) (h : Spells σ ts rs rest) :
      Spells (.regex :: σ) (t :: ts) (⟨t, .value⟩ :: rs) rest
  | template (pieces : List Piece) (ht : t.kind = .template (pieces.map Piece.tokens))
      (hs : ∀ q ∈ pieces, Spells [.expr q.expr] q.tokens q.readings q.rest)
      (he : ∀ q ∈ pieces, (q.rest.headD default).isEof = true) (h : Spells σ ts rs rest) :
      Spells (.template (pieces.map Piece.expr) :: σ) (t :: ts)
        (⟨t, .value⟩ :: pieces.flatMap Piece.all ++ rs) rest
  | omitted (ht : (ts.headD default).endsStatement = true) (h : Spells σ ts rs rest) :
      Spells (.omitted :: σ) ts rs rest
  | expand (hx : Rule x body) (hb : Spells body ts rs mid) (h : Spells σ mid rs' rest) :
      Spells (x :: σ) ts (rs ++ rs') rest

namespace Spells

/-- What is spelled one after the other is spelled together. -/
theorem append (h₁ : Spells σ₁ ts rs₁ mid) (h₂ : Spells σ₂ mid rs₂ rest) :
    Spells (σ₁ ++ σ₂) ts (rs₁ ++ rs₂) rest := by
  induction h₁ with
  | nil => exact h₂
  | mark ht hp _ ih => exact .mark ht hp (ih h₂)
  | word ht hr _ ih => exact .word ht hr (ih h₂)
  | access ht hp hu _ ih => exact .access ht hp hu (ih h₂)
  | optional ht hu hp _ ih => exact .optional ht hu hp (ih h₂)
  | constant ht _ ih => exact .constant ht (ih h₂)
  | regex ht _ ih => exact .regex ht (ih h₂)
  | template pieces ht hs he _ _ ih =>
    simpa [List.append_assoc] using Spells.template pieces ht hs he (ih h₂)
  | omitted ht _ ih => exact .omitted ht (ih h₂)
  | expand hx hb _ _ ih =>
    simpa [List.append_assoc] using Spells.expand hx hb (ih h₂)

end Spells

/-- A word is read as a property name or in a way that it admits. -/
def Reading.Admitted (r : Reading) : Prop :=
  ∀ w, r.token.word? = some w → r.role = .member ∨ r.role.admits w = true

/-- A token that is no word may be read as anything. -/
theorem Reading.admitted_of_word (role : Role) (h : t.word? = none) : Admitted ⟨t, role⟩ := by
  intro w hw
  rw [h] at hw
  cases hw

/-- Every token of a spelling is a word that its role admits, or no word. -/
theorem Spells.admitted (h : Spells σ ts rs rest) : ∀ r ∈ rs, r.Admitted := by
  induction h with
  | nil => simp
  | mark ht _ _ ih =>
    exact List.forall_mem_cons.mpr ⟨Reading.admitted_of_word _ (Token.word_of_isMark ht), ih⟩
  | word ht hr _ ih =>
    refine List.forall_mem_cons.mpr ⟨fun w hw => .inr ?_, ih⟩
    cases ht.symm.trans hw
    exact hr
  | access ht _ _ _ ih =>
    refine List.forall_mem_cons.mpr ⟨Reading.admitted_of_word _ (Token.word_of_isMark ht), ?_⟩
    exact List.forall_mem_cons.mpr ⟨fun _ _ => .inl rfl, ih⟩
  | optional ht hu _ _ ih =>
    refine List.forall_mem_cons.mpr ⟨Reading.admitted_of_word _ (Token.word_of_isMark ht), ?_⟩
    exact List.forall_mem_cons.mpr ⟨Reading.admitted_of_word _ (Token.word_of_isMark hu), ih⟩
  | constant ht _ ih =>
    exact List.forall_mem_cons.mpr ⟨Reading.admitted_of_word _ (Token.word_of_isConstant ht), ih⟩
  | regex ht _ ih =>
    exact List.forall_mem_cons.mpr ⟨Reading.admitted_of_word _ (Token.word_of_isRegex ht), ih⟩
  | template pieces ht _ he _ ihs ih =>
    refine List.forall_mem_cons.mpr ⟨Reading.admitted_of_word _ (by rw [Token.word?, ht]), ?_⟩
    intro r hr
    rcases List.mem_append.mp hr with hr | hr
    · obtain ⟨q, hq, hr⟩ := List.mem_flatMap.mp hr
      rcases List.mem_append.mp hr with hr | hr
      · exact ihs q hq r hr
      · rw [List.mem_singleton.mp hr]
        exact Reading.admitted_of_word _ (Token.word_of_isEof (he q hq))
    · exact ih r hr
  | omitted _ _ ih => exact ih
  | expand _ _ _ ihb ih =>
    intro r hr
    rcases List.mem_append.mp hr with hr | hr
    · exact ihb r hr
    · exact ih r hr

end ScriptHooks.Script
