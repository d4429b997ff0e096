import Reckoner.Binary64.Arithmetic
import Reckoner.Binary64.Power
import Reckoner.Binary64.Text
import Reckoner.Bindings
import Reckoner.Character.Blank
import Reckoner.Character.Digit
import Reckoner.Character.Printable
import Reckoner.Character.Word
import Reckoner.CommandLine
import Reckoner.Decimal.Shortest
import Reckoner.Diagnostic
import Reckoner.Evaluation
import Reckoner.Grammar
import Reckoner.Main
import Reckoner.Node.Document
import Reckoner.Numeral
import Reckoner.Proofs.Binary64.Integers
import Reckoner.Proofs.Checked.Arithmetic
import Reckoner.Proofs.Checked.Cursor
import Reckoner.Proofs.Checked.Evaluation
import Reckoner.Proofs.Checked.Scan
import Reckoner.Proofs.Checked.Session
import Reckoner.Proofs.Checked.Simulation
import Reckoner.Proofs.Evaluation.Changes
import Reckoner.Proofs.Evaluation.Faults
import Reckoner.Proofs.Evaluation.Machine
import Reckoner.Proofs.Evaluation.Range
import Reckoner.Proofs.Evaluation.Runs
import Reckoner.Proofs.Grammar.Automaton
import Reckoner.Proofs.Grammar.Derivation
import Reckoner.Proofs.Grammar.Language
import Reckoner.Proofs.Grammar.Readers
import Reckoner.Proofs.Numeral
import Reckoner.Proofs.Session.Lines
import Reckoner.Proofs.Session.Names
import Reckoner.Proofs.Session.Range
import Reckoner.Proofs.Token.Classes
import Reckoner.Proofs.Token.Division
import Reckoner.Proofs.Token.Scanned
import Reckoner.Proofs.Value.Range
import Reckoner.Sheet
import Reckoner.Snapshot
import Reckoner.Token.Scan
import Reckoner.Value.Arithmetic
import Reckoner.Proofs.Grammar.Viable
import Reckoner.Proofs.Decimal.Shortest
import Reckoner.Proofs.Session.Passes
import Reckoner.Proofs.Binary64.Text
import Reckoner.Proofs.Json.Printing
import Reckoner.Proofs.Node.Dump
import Reckoner.Proofs.Snapshot
import Reckoner.Proofs.Evaluation.Locality
import Reckoner.Proofs.Grammar.Words
import Reckoner.Proofs.Grammar.Printing
import Reckoner.Proofs.Token.Following
import Reckoner.Proofs.Session.Compound
import Reckoner.Proofs.Session.FailFast
import Reckoner.Proofs.Evaluation.Exchange
import Reckoner.Proofs.Token.Faults
import Reckoner.Proofs.Session.Readback
import Reckoner.Proofs.CommandLine.Delivery
import Reckoner.Proofs.CommandLine.Choices
import Reckoner.Proofs.Value.Quotient
import Reckoner.Proofs.Evaluation.Unbounded
import Reckoner.Proofs.Grammar.Items
import Reckoner.Proofs.Session.Spacing
import Reckoner.Proofs.Value.Powers
import Reckoner.Proofs.Token.Integers
import Reckoner.Proofs.Session.Decimals
import Reckoner.Proofs.Evaluation.Kinds
import Reckoner.Proofs.Binary64.Layout
import Reckoner.Proofs.Value.Remainder
import Reckoner.Proofs.Value.FinitePowers
import Reckoner.Proofs.Session.Source
import Reckoner.Proofs.Checked.Progress
import Reckoner.Proofs.Evaluation.History
