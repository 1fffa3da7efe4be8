import Calculator.Expr.Sketch
import Calculator.Main
import Calculator.Token.Session
import Calculator.Proofs.Grammar.Reading
import Calculator.Proofs.Scan.Partition
import Calculator.Proofs.Command.Lines
import Calculator.Proofs.Command.Words
import Calculator.Proofs.Command.Fold
import Calculator.Proofs.Calculation.Overflow
import Calculator.Proofs.Grammar.Viability
import Calculator.Proofs.Grammar.Prefixes
import Calculator.Proofs.Grammar.Ends
import Calculator.Proofs.Expr.Places
import Calculator.Proofs.Grammar.Rendering
import Calculator.Proofs.Expr.Blame
import Calculator.Proofs.Expr.Room
import Calculator.Proofs.Scan.Places
import Calculator.Proofs.Scan.Joining
import Calculator.Proofs.Scan.Spacing
import Calculator.Proofs.Grammar.Phrases
import Calculator.Proofs.Grammar.Moving
import Calculator.Proofs.Calculation.Stages
import Calculator.Proofs.Calculation.Pointing
import Calculator.Proofs.Calculation.Moving
import Calculator.Proofs.Calculation.Excerpts
import Calculator.Proofs.Calculation.Spacing
import Calculator.Proofs.Calculation.Composition
import Calculator.Proofs.Calculation.Trimming
import Calculator.Proofs.Calculation.Checked
import Calculator.Proofs.Calculation.Printing
import Calculator.Proofs.Expr.Guards
import Calculator.Proofs.Expr.Writing
import Calculator.Proofs.Scan.Appending
import Calculator.Proofs.Calculation.Literals
import Calculator.Proofs.Depth.Flat
import Calculator.Proofs.Command.Explaining
import Calculator.Proofs.Calculation.Spans
import Calculator.Proofs.Scan.Sessions
import Calculator.Proofs.Grammar.Sessions
