import ExprLexer.Files.Tree
import ExprLexer.Main
import ExprLexer.Proofs.Command.Exchange
import ExprLexer.Proofs.Command.Finality
import ExprLexer.Proofs.Command.Grammar
import ExprLexer.Proofs.Files.Text
import ExprLexer.Proofs.Program
import ExprLexer.Proofs.Report.Inputs
import ExprLexer.Proofs.Report.Places
import ExprLexer.Proofs.Report.Quotes
import ExprLexer.Proofs.Report.Reading
import ExprLexer.Proofs.Report.Safety
import ExprLexer.Proofs.Report.Setting
import ExprLexer.Proofs.Report.Trace
import ExprLexer.Proofs.Source.Lookup
import ExprLexer.Proofs.Source.Moves
import ExprLexer.Proofs.Source.Order
import ExprLexer.Proofs.Source.Walk
import ExprLexer.Proofs.Token.Append
import ExprLexer.Proofs.Token.Course
import ExprLexer.Proofs.Token.Done
import ExprLexer.Proofs.Token.Rendering
import ExprLexer.Proofs.Token.Resume
import ExprLexer.Proofs.Source.Layout
import ExprLexer.Proofs.Source.Characters
import ExprLexer.Proofs.Source.Runs
import ExprLexer.Proofs.Token.Printed
