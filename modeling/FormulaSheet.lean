import FormulaSheet.Text.Blank
import FormulaSheet.Formula.Parser
import FormulaSheet.Formula.Eval
import FormulaSheet.Functions.Arithmetic
import FormulaSheet.Report.Tree
import FormulaSheet.Dependency.Index
import FormulaSheet.Sheet.Basic
import FormulaSheet.Command.Run
import FormulaSheet.Main
import FormulaSheet.Proofs.Dependency.Reach
import FormulaSheet.Proofs.Dependency.Order
import FormulaSheet.Proofs.Dependency.Index
import FormulaSheet.Proofs.Dependency.Circle
import FormulaSheet.Proofs.Dependency.Descent
import FormulaSheet.Proofs.Grid.Walk
import FormulaSheet.Proofs.Formula.Reads
import FormulaSheet.Proofs.Formula.Parsed
import FormulaSheet.Proofs.Formula.Wording
import FormulaSheet.Proofs.Grid.Naming
import FormulaSheet.Proofs.Functions.Errors
import FormulaSheet.Proofs.Formula.Errors
import FormulaSheet.Proofs.Sheet.Run
import FormulaSheet.Proofs.Sheet.Wiring
import FormulaSheet.Proofs.Sheet.Current
import FormulaSheet.Proofs.Sheet.Intact
import FormulaSheet.Proofs.Sheet.Untracked
import FormulaSheet.Proofs.Sheet.Refusal
import FormulaSheet.Proofs.Sheet.Texts
import FormulaSheet.Proofs.Sheet.Determined
import FormulaSheet.Proofs.Sheet.Reachable
import FormulaSheet.Proofs.Sheet.Shown
import FormulaSheet.Proofs.Sheet.Spread
import FormulaSheet.Proofs.Sheet.Naive
import FormulaSheet.Proofs.Formula.Grammar
import FormulaSheet.Proofs.Formula.Written
import FormulaSheet.Proofs.Number.Bits
import FormulaSheet.Proofs.Text.Capitals
import FormulaSheet.Proofs.Text.Trimming
import FormulaSheet.Proofs.Number.Plain
import FormulaSheet.Proofs.Formula.Canonical
import FormulaSheet.Proofs.Sheet.Frame
import FormulaSheet.Proofs.Dependency.Probe
import FormulaSheet.Proofs.Dependency.Changes
import FormulaSheet.Proofs.Dependency.Stack
import FormulaSheet.Proofs.Dependency.Recalculation
import FormulaSheet.Proofs.Formula.Limit
import FormulaSheet.Proofs.Sheet.Failure
import FormulaSheet.Proofs.Grid.Spelling
import FormulaSheet.Proofs.Formula.Collected
import FormulaSheet.Proofs.Sheet.Repetition
import FormulaSheet.Proofs.Grid.Views
import FormulaSheet.Proofs.Grid.Checked
import FormulaSheet.Proofs.Grid.LeadingZeros
import FormulaSheet.Proofs.Sheet.Filing
import FormulaSheet.Proofs.Sheet.Names
import FormulaSheet.Proofs.Sheet.SelfReference
import FormulaSheet.Proofs.Formula.Spacing
import FormulaSheet.Proofs.Formula.Faults
import FormulaSheet.Proofs.Formula.Slices
import FormulaSheet.Proofs.Formula.OnePass
import FormulaSheet.Proofs.Formula.Nesting
import FormulaSheet.Proofs.Functions.Results
import FormulaSheet.Proofs.Formula.Words
import FormulaSheet.Proofs.Sheet.Layout
import FormulaSheet.Proofs.Sheet.Sorting
import FormulaSheet.Proofs.Sheet.Arrangement
