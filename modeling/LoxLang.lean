import LoxLang.Number.Binary64
import LoxLang.Number.Decimal
import LoxLang.Number.Text
import LoxLang.Token
import LoxLang.Token.Piece
import LoxLang.Token.Scan
import LoxLang.Token.Report
import LoxLang.Diagnostic
import LoxLang.Tree
import LoxLang.Tree.Equality
import LoxLang.Tree.Outline
import LoxLang.Parsing.Fault
import LoxLang.Parsing.Cursor
import LoxLang.Parsing.Readers
import LoxLang.Parsing.Expression
import LoxLang.Parsing.Statement
import LoxLang.Scope.Violation
import LoxLang.Scope.Resolution
import LoxLang.Value
import LoxLang.Store
import LoxLang.Machine
import LoxLang.Machine.Fault
import LoxLang.Machine.Operator
import LoxLang.Machine.Evaluation
import LoxLang.Program
import LoxLang.Session
import LoxLang.Text.Json
import LoxLang.Text.CodeRange
import LoxLang.Text.Extending
import LoxLang.Text.Invisible
import LoxLang.Text.Unassigned
import LoxLang.Text.Quoted
import LoxLang.Text.Utf8
import LoxLang.Command.Arguments
import LoxLang.Command.Transcript
import LoxLang.Main
import LoxLang.Proofs.Token.Genuine
import LoxLang.Proofs.Parsing.Progress
import LoxLang.Proofs.Parsing.Reading
import LoxLang.Proofs.Parsing.Yields
import LoxLang.Proofs.Parsing.Sound
import LoxLang.Proofs.Parsing.Reaching
import LoxLang.Proofs.Parsing.Complete
import LoxLang.Proofs.Parsing.Trees
import LoxLang.Proofs.Grammar.Rule
import LoxLang.Proofs.Grammar.Derivable
import LoxLang.Proofs.Grammar.Readable
import LoxLang.Proofs.Grammar.Acceptance
import LoxLang.Proofs.Scope.Occurrences
import LoxLang.Proofs.Store.Kept
import LoxLang.Proofs.Machine.Ending
import LoxLang.Proofs.Machine.Operation
import LoxLang.Proofs.Machine.Activity
import LoxLang.Proofs.Machine.Discipline
import LoxLang.Proofs.Machine.Obeying
import LoxLang.Proofs.Machine.Leading
import LoxLang.Proofs.Machine.Settling
import LoxLang.Proofs.Machine.Evolution
import LoxLang.Proofs.Machine.Pairing
import LoxLang.Proofs.Machine.Pacing
import LoxLang.Proofs.Machine.Blame
import LoxLang.Proofs.Machine.Validity
import LoxLang.Proofs.Machine.Sited
import LoxLang.Proofs.Machine.Siting
import LoxLang.Proofs.Machine.Agreement
import LoxLang.Proofs.Session.Reachable
import LoxLang.Proofs.Session.Scopes
import LoxLang.Proofs.Token.Joining
import LoxLang.Proofs.Tree.Relabelled
import LoxLang.Proofs.Tree.Moved
import LoxLang.Proofs.Scope.Moved
import LoxLang.Proofs.Scope.Identities
import LoxLang.Proofs.Parsing.Joining
import LoxLang.Proofs.Program.Joining
import LoxLang.Proofs.Machine.Alike
import LoxLang.Proofs.Machine.Simulation
import LoxLang.Proofs.Session.Joining
import LoxLang.Proofs.Tree.Rendering
import LoxLang.Proofs.Parsing.Rendering
import LoxLang.Proofs.Parsing.Formed
import LoxLang.Proofs.Scope.Lawful
import LoxLang.Proofs.Scope.Anchored
import LoxLang.Proofs.Machine.Guarded
import LoxLang.Proofs.Machine.Guarding
import LoxLang.Proofs.Machine.Returning
import LoxLang.Proofs.Session.Checked
import LoxLang.Proofs.Tree.Matching
import LoxLang.Proofs.Machine.Matching
import LoxLang.Proofs.Machine.Hygiene
import LoxLang.Proofs.Parsing.Renumbering
import LoxLang.Proofs.Scope.Matching
import LoxLang.Proofs.Scope.Clean
import LoxLang.Proofs.Tree.Renumbered
import LoxLang.Proofs.Session.Refusals
import LoxLang.Proofs.Tree.Renaming
import LoxLang.Proofs.Scope.Renaming
import LoxLang.Proofs.Session.Renaming
import LoxLang.Proofs.Scope.Reports
import LoxLang.Proofs.Token.Lexeme
import LoxLang.Proofs.Token.Stream
import LoxLang.Proofs.Token.Respaced
import LoxLang.Proofs.Token.Lines
import LoxLang.Proofs.Machine.Rooted
import LoxLang.Proofs.Machine.Fixing
import LoxLang.Proofs.Machine.Moments
import LoxLang.Proofs.Machine.Bound
import LoxLang.Proofs.Session.Receivers
import LoxLang.Proofs.Parsing.Issuing
import LoxLang.Proofs.Session.Identities
import LoxLang.Proofs.Machine.Outlasting
import LoxLang.Proofs.Session.Limits
import LoxLang.Proofs.Parsing.Loopless
import LoxLang.Proofs.Machine.Finishing
import LoxLang.Proofs.Session.Finishing
import LoxLang.Proofs.Session.Verdicts
import LoxLang.Proofs.Machine.Nesting
import LoxLang.Proofs.Session.Nesting
import LoxLang.Proofs.Parsing.Parents
import LoxLang.Proofs.Scope.Lexical
import LoxLang.Proofs.Parsing.Surroundings
import LoxLang.Proofs.Parsing.Confinement
import LoxLang.Proofs.Parsing.Ending
import LoxLang.Proofs.Parsing.Recovery
import LoxLang.Proofs.Parsing.Unterminated
import LoxLang.Proofs.Store.Links
import LoxLang.Proofs.Store.Forest
import LoxLang.Proofs.Machine.Linked
import LoxLang.Proofs.Machine.Linking
import LoxLang.Proofs.Store.Listing
import LoxLang.Proofs.Session.Chains
import LoxLang.Proofs.Number.Binary64
import LoxLang.Proofs.Number.ReadingBack
import LoxLang.Proofs.Tree.Form
import LoxLang.Proofs.Tree.Recovering
import LoxLang.Proofs.Program.Outline
