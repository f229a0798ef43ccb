import PairLisp.SExpr.Digest
import PairLisp.Session
import PairLisp.Main
import PairLisp.Proofs.SExpr.Dotted
import PairLisp.Proofs.Token.Lexeme
import PairLisp.Proofs.Clause.Dotted
import PairLisp.Proofs.Eval.Scope
import PairLisp.Proofs.Eval.Depth
import PairLisp.Proofs.Eval.Handles
import PairLisp.Proofs.Program.Replay
import PairLisp.Proofs.Comment.Scan
import PairLisp.Proofs.Program.Tokens
import PairLisp.Proofs.Program.Sequence
import PairLisp.Proofs.SExpr.Printed
import PairLisp.Proofs.Program.Printed
import PairLisp.Proofs.Eval.Grounded
import PairLisp.Proofs.Eval.Values
import PairLisp.Proofs.Program.Comments
import PairLisp.Proofs.Clause.Brackets
import PairLisp.Proofs.Token.Brackets
import PairLisp.Proofs.Program.Brackets
import PairLisp.Proofs.Clause.Balanced
import PairLisp.Proofs.Clause.Faults
import PairLisp.Proofs.Program.Account
import PairLisp.Proofs.Eval.Procedures
import PairLisp.Proofs.Eval.Closures
import PairLisp.Proofs.Token.Language
import PairLisp.Proofs.Clause.Nesting
import PairLisp.Proofs.Eval.Unmentioned
import PairLisp.Proofs.Eval.Renumbered
import PairLisp.Proofs.Primitive.Calculation
import PairLisp.Proofs.Primitive.Comparison
import PairLisp.Proofs.Primitive.Division
import PairLisp.Proofs.Primitive.Power
import PairLisp.Proofs.Eval.Failures
import PairLisp.Proofs.Eval.Literal
import PairLisp.Proofs.Eval.Call
import PairLisp.Proofs.Eval.Conditional
import PairLisp.Proofs.Eval.Junction
import PairLisp.Proofs.Eval.Effects
import PairLisp.Proofs.Eval.Names
import PairLisp.Proofs.Eval.Refusal
import PairLisp.Proofs.Comment.Pieces
import PairLisp.Proofs.Token.Spacing
import PairLisp.Proofs.Session
import PairLisp.Proofs.SExpr.Same
import PairLisp.Proofs.SExpr.Digest
import PairLisp.Proofs.CommandLine.Run
import PairLisp.Proofs.Clause.Counting
import PairLisp.Proofs.Clause.Positions
import PairLisp.Proofs.Numeral.Value
import PairLisp.Proofs.Token.Lossless
