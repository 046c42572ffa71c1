import Reckoner.View
import Reckoner.Proofs.Grammar.Token
import Reckoner.Proofs.Grammar.Derivation
import Reckoner.Proofs.Grammar.Reading
import Reckoner.Proofs.Grammar.Soundness
import Reckoner.Proofs.Grammar.Completeness
import Reckoner.Proofs.Grammar.Recognition
import Reckoner.Proofs.Expr.Meaning
import Reckoner.Proofs.Structure.Scan
import Reckoner.Proofs.Structure.Agreement
import Reckoner.Proofs.Structure.Matching
import Reckoner.Proofs.Expr.Written
import Reckoner.Proofs.Expr.Faults
import Reckoner.Proofs.Session.Silence
import Reckoner.Proofs.Grammar.Composition
import Reckoner.Proofs.Grammar.Opening
import Reckoner.Proofs.Grammar.Stopping
import Reckoner.Proofs.Grammar.Overflow
import Reckoner.Proofs.Grammar.Refused
import Reckoner.Proofs.Grammar.TooDeep
import Reckoner.Proofs.Grammar.Longest
import Reckoner.Proofs.Grammar.DeepOperand
import Reckoner.Proofs.Expr.Depth
import Reckoner.Proofs.Expr.Tokens
import Reckoner.Proofs.Expr.Evaluation
import Reckoner.Proofs.Expr.Polish
import Reckoner.Proofs.Tree.Formed
import Reckoner.Proofs.Tree.Lossless
import Reckoner.Proofs.Tree.Search
import Reckoner.Proofs.Tree.Defective
import Reckoner.Proofs.Analysis.Gate
import Reckoner.Proofs.Session.History
import Reckoner.Proofs.Session.Reports
import Reckoner.Proofs.Session.Range
import Reckoner.Proofs.Session.Distinct
import Reckoner.Proofs.Grammar.Damage
import Reckoner.Proofs.Grammar.Expected
import Reckoner.Proofs.Session.Damage
import Reckoner.Proofs.Text.Translation
import Reckoner.Proofs.Text.Boundary
import Reckoner.Proofs.Grammar.Translation
import Reckoner.Proofs.Expr.Translation
import Reckoner.Proofs.Structure.Translation
import Reckoner.Proofs.Calculator.Preview
import Reckoner.Proofs.Session.Segments
import Reckoner.Proofs.View.Agreement
import Reckoner.Proofs.View.Frame
import Reckoner.Proofs.View.Colouring
import Reckoner.Proofs.Structure.Deletion
import Reckoner.Proofs.Grammar.Cut
import Reckoner.Proofs.Grammar.Unclosed
import Reckoner.Proofs.Grammar.Trail
import Reckoner.Proofs.Structure.Respacing
import Reckoner.Proofs.Completion.Narrowing
import Reckoner.Proofs.Calculator.Erasing
import Reckoner.Proofs.Diagnostic.Rendering
import Reckoner.Proofs.Session.Rendering
import Reckoner.Proofs.Number.Readable
import Reckoner.Proofs.Expr.Literals
import Reckoner.Proofs.Tree.Descent
import Reckoner.Proofs.Tree.Height
import Reckoner.Proofs.Number.Rounding
import Reckoner.Proofs.Number.Positional
import Reckoner.Proofs.Number.Sign
import Reckoner.Proofs.Expr.Shown
