import LoxLang.Text.Json
import LoxLang.Token.Scan

/-!
# Token reports

The two ways to show what a scan gives: a listing with one line for each token, and a JSON report
with the scan errors beside the tokens.
-/

namespace LoxLang

/-- The kind of a token in a report: its name, for a literal with the value. -/
def Kind.report : Kind → JsonValue
  | .string contents => .record [.mk "STRING" (.text contents)]
  | .number value => .record [.mk "NUMBER" (.numeral (NumberText.json value))]
  | other => .text other.listingName

/-- A token in a report. -/
def Token.report (token : Token) : JsonValue :=
  .record [.mk "lexeme" (.text token.lexeme), .mk "line" (.numeral (naturalText token.line)),
    .mk "token_type" token.kind.report]

/-- A diagnostic in a report. -/
def Diagnostic.report (diagnostic : Diagnostic) : JsonValue :=
  let lexeme := match diagnostic.lexeme with
    | none => .null
    | some text => .text text
  .record [.mk "kind" (.text diagnostic.stage.tag), .mk "lexeme" lexeme,
    .mk "line" (.numeral (naturalText diagnostic.line)), .mk "message" (.text diagnostic.message)]

/-- The report on a scan. -/
def scanReport (items : List ScanItem) : JsonValue :=
  .record [.mk "errors" (.list ((scanDiagnostics items).map Diagnostic.report)),
    .mk "tokens" (.list ((scannedTokens items).map Token.report))]

/-- The listing of a scan: one line for each token. -/
def scanListing (items : List ScanItem) : String :=
  String.join ((scannedTokens items).map fun token => token.display ++ "\n")

end LoxLang
