import AlgebraicData.Declaration.Printer
import AlgebraicData.Command.Run
import AlgebraicData.Main
import AlgebraicData.Proofs.Prelude
import AlgebraicData.Proofs.Text.Position
import AlgebraicData.Proofs.Text.Case
import AlgebraicData.Proofs.Text.Cut
import AlgebraicData.Proofs.Declaration.Invariant
import AlgebraicData.Proofs.Grammar.Rule
import AlgebraicData.Proofs.Grammar.Choice
import AlgebraicData.Proofs.Grammar.Token
import AlgebraicData.Proofs.Grammar.TypeExpr
import AlgebraicData.Proofs.Grammar.Declaration
import AlgebraicData.Proofs.Grammar.RoundTrip
import AlgebraicData.Proofs.Grammar.Failure
import AlgebraicData.Proofs.Grammar.Backtracking
import AlgebraicData.Proofs.Grammar.ViablePrefix
import AlgebraicData.Proofs.Grammar.Repetition
import AlgebraicData.Proofs.Grammar.Spacing
import AlgebraicData.Proofs.Grammar.Progress
import AlgebraicData.Proofs.Name.Scope
import AlgebraicData.Proofs.Name.Requests
import AlgebraicData.Proofs.Name.Identifier
import AlgebraicData.Proofs.Name.Casing
import AlgebraicData.Proofs.Name.Repair
import AlgebraicData.Proofs.Target.Evaluation
import AlgebraicData.Proofs.Target.Occurrence
import AlgebraicData.Proofs.Target.Layout
import AlgebraicData.Proofs.Target.Lines
import AlgebraicData.Proofs.Target.Indentation
import AlgebraicData.Proofs.Target.Lexeme
import AlgebraicData.Proofs.Target.Reading
import AlgebraicData.Proofs.Target.Quoting
import AlgebraicData.Proofs.Bundle.Basic
import AlgebraicData.Proofs.Bundle.Types
import AlgebraicData.Proofs.Bundle.TypeText
import AlgebraicData.Proofs.Bundle.Member
import AlgebraicData.Proofs.Bundle.Fold
import AlgebraicData.Proofs.Bundle.Construction
import AlgebraicData.Proofs.Bundle.Traversal
import AlgebraicData.Proofs.Bundle.Property
import AlgebraicData.Proofs.Bundle.Signature
import AlgebraicData.Proofs.Bundle.Equality
import AlgebraicData.Proofs.Bundle.Binding
import AlgebraicData.Proofs.Bundle.Spelling
import AlgebraicData.Proofs.Bundle.Closure
import AlgebraicData.Proofs.Bundle.Comparison
import AlgebraicData.Proofs.Bundle.Switch
import AlgebraicData.Proofs.Bundle.Fragments
import AlgebraicData.Proofs.Command.FileTree
import AlgebraicData.Proofs.Command.Outcome
