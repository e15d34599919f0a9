import StateMachine.Check.Rules
import StateMachine.Json.Reader
import StateMachine.Machine.Encoding
import StateMachine.Machine.Parser
import StateMachine.Machine.Printer
import StateMachine.Machine.Summary
import StateMachine.Main
import StateMachine.Python.Code
import StateMachine.Settings
import StateMachine.Simulation
import StateMachine.Proofs.Check.Competition
import StateMachine.Proofs.Check.Report
import StateMachine.Proofs.Check.Rules
import StateMachine.Proofs.Guard.Accepted
import StateMachine.Proofs.Guard.Bracketed
import StateMachine.Proofs.Guard.ByValue
import StateMachine.Proofs.Guard.Evaluation
import StateMachine.Proofs.Guard.Exclusion
import StateMachine.Proofs.Guard.Number
import StateMachine.Proofs.Guard.Operand
import StateMachine.Proofs.Guard.Printable
import StateMachine.Proofs.Guard.Reading
import StateMachine.Proofs.Guard.RoundTrip
import StateMachine.Proofs.Machine.Acceptance
import StateMachine.Proofs.Machine.CanonicalText
import StateMachine.Proofs.Machine.Derivation
import StateMachine.Proofs.Machine.Grammar
import StateMachine.Proofs.Machine.Line
import StateMachine.Proofs.Machine.Located
import StateMachine.Proofs.Machine.Printable
import StateMachine.Proofs.Machine.RoundTrip
import StateMachine.Proofs.Machine.Step
import StateMachine.Proofs.Numeric.ReadBack
import StateMachine.Proofs.Python.Accepted
import StateMachine.Proofs.Python.Attribute
import StateMachine.Proofs.Python.Binding
import StateMachine.Proofs.Python.ClassName
import StateMachine.Proofs.Python.ConditionTruth
import StateMachine.Proofs.Python.Dispatch
import StateMachine.Proofs.Python.Execution
import StateMachine.Proofs.Python.Handler
import StateMachine.Proofs.Python.Handling
import StateMachine.Proofs.Python.Helper
import StateMachine.Proofs.Python.HelperSemantics
import StateMachine.Proofs.Python.Lockstep
import StateMachine.Proofs.Python.Module
import StateMachine.Proofs.Python.Refusal
import StateMachine.Proofs.Python.Semantics
import StateMachine.Proofs.Python.Syntax
import StateMachine.Proofs.Python.Transition
import StateMachine.Proofs.Python.Visible
import StateMachine.Proofs.Simulation.Determinism
import StateMachine.Proofs.Simulation.Run
import StateMachine.Proofs.Simulation.Safety
import StateMachine.Proofs.Token.Scan
import StateMachine.Proofs.Check.WellFormed
import StateMachine.Proofs.Check.Unreachable
import StateMachine.Proofs.Simulation.Rejection
import StateMachine.Proofs.Check.Placement
import StateMachine.Proofs.Python.Placement
import StateMachine.Proofs.Simulation.Placement
import StateMachine.Proofs.Interchange
import StateMachine.Proofs.Token.Relocation
import StateMachine.Proofs.Machine.Relocation
import StateMachine.Proofs.Machine.Composition
import StateMachine.Proofs.Machine.Layout
import StateMachine.Proofs.Json.Members
import StateMachine.Proofs.Json.ReadBack
import StateMachine.Proofs.CommandLine.Check
import StateMachine.Proofs.Guard.Grammar
import StateMachine.Proofs.Guard.Recognition
import StateMachine.Proofs.Guard.Derivation
import StateMachine.Proofs.Guard.Acceptance
import StateMachine.Proofs.Guard.Rounded
import StateMachine.Proofs.Text.Location
import StateMachine.Proofs.Token.GuardText
import StateMachine.Proofs.Token.Piece
import StateMachine.Proofs.Token.Segmentation
import StateMachine.Proofs.Machine.Guarded
import StateMachine.Proofs.Machine.ErrorPlace
import StateMachine.Proofs.Check.Verdict
import StateMachine.Proofs.Token.Order
import StateMachine.Proofs.Check.DiagnosticPlace
import StateMachine.Proofs.Indentation
import StateMachine.Proofs.Python.Layout
import StateMachine.Proofs.Python.ConditionReading
import StateMachine.Proofs.Machine.Summary
import StateMachine.Proofs.Python.Naming
import StateMachine.Proofs.Python.Table
import StateMachine.Proofs.Token.Identifier
