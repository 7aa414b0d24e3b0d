import LoxLang.Diagnostic
import LoxLang.Token.Piece

/-!
# Scanning

`scan` reads a source text as tokens and faults, each with the line it ends on, and closes the list
with one end marker. A fault does not stop the scan: it goes on behind the faulty piece.
-/

namespace LoxLang

/-- One result of a scan. -/
inductive ScanItem where
  | token (scanned : Token)
  | fault (line : Nat) (cause : ScanFault)
deriving DecidableEq, Repr

namespace ScanItem

/-- The token of an item, if it is one. -/
def token? : ScanItem → Option Token
  | token scanned => some scanned
  | fault _ _ => none

/-- The diagnostic of an item, if it is a fault. -/
def diagnostic? : ScanItem → Option Diagnostic
  | token _ => none
  | fault line cause => some (.onLine .scan line cause.message)

/-- The items of consecutive pieces, the first of which starts on `line`. Skipped pieces give no
item but count their newlines. -/
def ofPieces (line : Nat) : List Piece → List ScanItem
  | [] => [token { kind := .eof, lexeme := "", line }]
  | piece :: rest =>
    let ending := line + piece.text.count '\n'
    match piece.content with
    | .skipped => ofPieces ending rest
    | .token kind =>
      token { kind, lexeme := String.ofList piece.text, line := ending } :: ofPieces ending rest
    | .fault cause => fault ending cause :: ofPieces ending rest

end ScanItem

/-- The tokens and faults of a source text, in order. -/
def scan (source : String) : List ScanItem :=
  ScanItem.ofPieces 1 (Piece.cut source.toList)

/-- The tokens among scan items. -/
def scannedTokens (items : List ScanItem) : List Token :=
  items.filterMap ScanItem.token?

/-- The diagnostics among scan items. -/
def scanDiagnostics (items : List ScanItem) : List Diagnostic :=
  items.filterMap ScanItem.diagnostic?

end LoxLang
