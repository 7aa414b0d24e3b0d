import LoxLang.Parsing.Statement
import LoxLang.Scope.Resolution
import LoxLang.Token.Scan
import LoxLang.Tree.Equality

/-!
# Reading source text as a program

`Program.ofSource` scans and parses a text. It keeps the statements that could be read, the
diagnostics of both stages in their order, and the first identity that is still unused.
-/

namespace LoxLang

/-- A source text as far as it could be read. -/
structure Program where
  statements : List Stmt
  diagnostics : List Diagnostic
  nextId : Nat
deriving DecidableEq

namespace Program

/-- Read a source text; identities are handed out from `firstId` on. -/
def ofSource (source : String) (firstId : Nat) : Program :=
  let items := scan source
  let result := parse (scannedTokens items) firstId
  { statements := result.statements
    diagnostics := scanDiagnostics items ++ result.errors.map ParseError.diagnostic
    nextId := result.nextId }

/-- The diagnostics of scope resolution. -/
def resolveDiagnostics (resolution : Resolution) : List Diagnostic :=
  resolution.errors.map ResolveError.diagnostic

end Program

end LoxLang
