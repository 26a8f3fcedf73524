import Calculator.Expr.Counter
import Calculator.Expr.Grammar
import Calculator.Main
import Calculator.Proofs.Canonical
import Calculator.Proofs.Caret
import Calculator.Proofs.Concatenation
import Calculator.Proofs.Diagnosis
import Calculator.Proofs.Dialogue
import Calculator.Proofs.Display
import Calculator.Proofs.Idempotence
import Calculator.Proofs.InOrder
import Calculator.Proofs.IndexedReading
import Calculator.Proofs.LeftmostDefect
import Calculator.Proofs.Machine
import Calculator.Proofs.NestingBounds
import Calculator.Proofs.OffendingCharacter
import Calculator.Proofs.Order
import Calculator.Proofs.Outcome
import Calculator.Proofs.Precision
import Calculator.Proofs.Replacement
import Calculator.Proofs.Segmentation
import Calculator.Proofs.SignRuns
import Calculator.Proofs.Tally
import Calculator.Proofs.TextForm
import Calculator.Proofs.Tightening
import Calculator.Proofs.TypedBack
import Calculator.Proofs.Verdict
import Calculator.Proofs.ViablePrefix
import Calculator.Proofs.WholeCalculation
import Calculator.Proofs.Window
import Calculator.Session
