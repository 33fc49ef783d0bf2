import Lox.Main
import Lox.Value.Inspect
import Lox.Proofs.Grammar.Reading
import Lox.Proofs.Grammar.Leaves
import Lox.Proofs.Grammar.Completeness.Expression
import Lox.Proofs.Grammar.Completeness.Statement
import Lox.Proofs.Grammar.Exactness
import Lox.Proofs.Binding.Passes
import Lox.Proofs.Binding.Places
import Lox.Proofs.Evaluation.Keeping
import Lox.Proofs.Evaluation.Moments
import Lox.Proofs.Grammar.Placement
import Lox.Proofs.Grammar.Supply
import Lox.Proofs.Session.Agreement
import Lox.Proofs.Session.Alignment
import Lox.Proofs.Lexical.Erasure
import Lox.Proofs.Lexical.Guarantees
import Lox.Proofs.Evaluation.Restoring
import Lox.Proofs.Evaluation.Depth
import Lox.Proofs.Session.Rejection
import Lox.Proofs.Syntax.Renumbering
import Lox.Proofs.Evaluation.Correspondence
import Lox.Proofs.Binding.Correspondence
import Lox.Proofs.Grammar.Correspondence
import Lox.Proofs.Evaluation.Portions
import Lox.Proofs.Grammar.Extension
import Lox.Proofs.Token.Joining
import Lox.Proofs.Session.Succession
import Lox.Proofs.Session.Joining
import Lox.Proofs.Session.Receivers
import Lox.Proofs.Lexical.Changes
import Lox.Proofs.Lexical.Functions
import Lox.Proofs.Lexical.Simulation
import Lox.Proofs.Session.Lexical
import Lox.Proofs.Token.Longest
import Lox.Proofs.Reach.Evaluation
import Lox.Proofs.Reach.Frame
import Lox.Proofs.Session.Frame
import Lox.Proofs.Binding.Distinct
import Lox.Proofs.Binding.Paired
import Lox.Proofs.Evaluation.Akin
import Lox.Proofs.Renaming.Accepted
import Lox.Proofs.Renaming.Binding
import Lox.Proofs.Renaming.Evaluation
import Lox.Proofs.Renaming.Grammar
import Lox.Proofs.Renaming.Reading
import Lox.Proofs.Session.Renaming
import Lox.Proofs.Output.Refusal
import Lox.Proofs.Output.Shortening
import Lox.Proofs.Session.Printing
import Lox.Proofs.Receivers.Moments
import Lox.Proofs.Returning.Outside
import Lox.Proofs.Returning.Recording
import Lox.Proofs.Returning.Unwinding
import Lox.Proofs.Session.Returning
import Lox.Proofs.Session.Expansion
import Lox.Proofs.Token.Lines
import Lox.Proofs.Grammar.FaultOrder
import Lox.Proofs.Grammar.Concatenation
import Lox.Proofs.Indexed.Total
import Lox.Proofs.Token.Composition
import Lox.Proofs.Token.Spacing
import Lox.Proofs.Session.Properties
import Lox.Proofs.Session.Construction
import Lox.Proofs.Scopes.Walking
import Lox.Proofs.Session.Globals
import Lox.Proofs.Session.Calls
import Lox.Proofs.Session.Numbering
import Lox.Proofs.Binding.Balance
import Lox.Proofs.Bytewise.Scanning
import Lox.Proofs.Number.Nearest
import Lox.Proofs.Number.Printed
import Lox.Proofs.Session.PrefixForm
