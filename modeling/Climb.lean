import Climb.Grammar.Registration
import Climb.Grammar.Tree
import Climb.Main
import Climb.Token.Lexer
import Climb.Proofs.Token.Cursor
import Climb.Proofs.Grammar.Cursor
import Climb.Proofs.Grammar.Congruence
import Climb.Proofs.Grammar.Depth
import Climb.Proofs.Grammar.Reading
import Climb.Proofs.Grammar.Climbing
import Climb.Proofs.Expr.Strata
import Climb.Proofs.Grammar.Forms
import Climb.Proofs.Expr.Rounds
import Climb.Proofs.Expr.Recognition
import Climb.Proofs.Number.Reading
import Climb.Proofs.Token.Lexing
import Climb.Proofs.Expr.RoundTrip
import Climb.Proofs.Expr.Folding
import Climb.Proofs.Grammar.Interpretation
import Climb.Proofs.Grammar.PostOrder
import Climb.Proofs.Number.Failures
import Climb.Proofs.Expr.Rules
import Climb.Proofs.Expr.FusedFolding
import Climb.Proofs.Expr.Arithmetic
import Climb.Proofs.Grammar.Promptness
import Climb.Proofs.Expr.Blame
import Climb.Proofs.Expr.Completion
import Climb.Proofs.Expr.Viability
import Climb.Proofs.Grammar.Failing
import Climb.Proofs.Grammar.Registration
import Climb.Proofs.Grammar.BelowZero
import Climb.Proofs.Token.Calls
import Climb.Proofs.Token.Lexemes
import Climb.Proofs.Token.MaximalMunch
import Climb.Proofs.Grammar.Rescaling
import Climb.Proofs.Token.Asking
import Climb.Proofs.Grammar.Composition
import Climb.Proofs.Expr.Failures
import Climb.Proofs.Grammar.Lookahead
import Climb.Proofs.Expr.LazyLexing
import Climb.Proofs.Number.Writing
import Climb.Proofs.Expr.Writing
import Climb.Proofs.Expr.Evaluation
import Climb.Proofs.Command.Endings
import Climb.Proofs.Expr.Grouping
import Climb.Proofs.Expr.NormalForm
import Climb.Proofs.Expr.Spelling
import Climb.Proofs.Grammar.Chains
import Climb.Proofs.Expr.Respelling
import Climb.Proofs.Token.Reach
import Climb.Proofs.Token.Sharing
import Climb.Proofs.Expr.Footprint
import Climb.Proofs.Grammar.Locality
import Climb.Proofs.Grammar.Nesting
import Climb.Proofs.Expr.Outline
import Climb.Proofs.Expr.Literals
import Climb.Proofs.Number.Size
