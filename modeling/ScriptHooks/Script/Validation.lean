/-
ScriptHooks.Script.Validation — which scripts are accepted.

A script is accepted if it lexes and parses without issues and has no construct
that could stall the host. Validation runs nothing. All issues are reported at once,
those of the lexer, of the parser and of the construct check, in the order of their
positions.

A script that is to be stored must also declare both entry points as functions at
its root: the one by which it describes itself and the one that runs it.
`validate_isOk_iff` says what acceptance comes to.
-/
import ScriptHooks.Script.Lexer
import ScriptHooks.Script.Parser
import ScriptHooks.Script.Symbols

namespace ScriptHooks.Script

def metadataEntryPoint : String := "getScriptMetadata"

/-- The function that runs when an event of the script fires. -/
def executeEntryPoint : String := "executeScript"

/-- The symbol tree of an accepted script, or all that is wrong with it. -/
def validate (source : String) : Except ValidationError SymbolTree :=
  let (tokens, lexIssues) := Lexer.tokensOf source
  let (program, parseIssues) := Program.ofTokens tokens
  let issues := lexIssues ++ parseIssues ++ program.violations
  if issues.isEmpty then .ok (.ofProgram program) else .error (.ofIssues issues)

theorem validate_isOk_iff {source : String} :
    (validate source).isOk = true ↔
      (Lexer.tokensOf source).2 = [] ∧ (Program.ofTokens (Lexer.tokensOf source).1).2 = [] ∧
        (Program.ofTokens (Lexer.tokensOf source).1).1.violations = [] := by
  unfold validate
  dsimp only
  split
  · rename_i h
    simp only [List.isEmpty_iff, List.append_eq_nil_iff, and_assoc] at h
    exact iff_of_true rfl h
  · rename_i h
    simp only [List.isEmpty_iff, List.append_eq_nil_iff, and_assoc] at h
    exact iff_of_false nofun h

/-- Both entry points must be functions at the root. -/
def checkEntryPoints (tree : SymbolTree) : Except ValidationError Unit :=
  let missing := [metadataEntryPoint, executeEntryPoint].filter fun name =>
    !tree.declaresFunction name
  if missing.isEmpty then .ok ()
  else
    .error (.ofIssues (missing.map fun name =>
      ⟨.missingEntryPoint, "missing root-level function '" ++ name ++ "'", .absent⟩))

end ScriptHooks.Script
