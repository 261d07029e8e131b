import Tabletop.Main
import Tabletop.Settings.Use
import Tabletop.Proofs.Reading.Exact
import Tabletop.Proofs.Evaluation.Audit
import Tabletop.Proofs.Evaluation.Outcome
import Tabletop.Proofs.Evaluation.Replay
import Tabletop.Proofs.Rolling.Ensures
import Tabletop.Proofs.Rolling.Recount
import Tabletop.Proofs.Evaluation.Recount
import Tabletop.Proofs.Alias
import Tabletop.Proofs.Notation.Glyphs
import Tabletop.Proofs.Evaluation.Validation
import Tabletop.Proofs.Text.Divided
import Tabletop.Proofs.Notation.Divided
import Tabletop.Proofs.Reading.Shift
import Tabletop.Proofs.Rolling.Sequence
import Tabletop.Proofs.Evaluation.Composition
import Tabletop.Proofs.Rendering.Basic
import Tabletop.Proofs.Notation.Cuts
import Tabletop.Proofs.Rendering.Words
import Tabletop.Proofs.Rendering.RoundTrip
import Tabletop.Proofs.Rolling.Growth
import Tabletop.Proofs.Rolling.Calls
import Tabletop.Proofs.Rolling.Terms
import Tabletop.Proofs.Rolling.Effort
import Tabletop.Proofs.Rolling.Selection
import Tabletop.Proofs.Rolling.Conservation
import Tabletop.Proofs.Rolling.Widening
import Tabletop.Proofs.Rolling.Order
import Tabletop.Proofs.Evaluation.Effort
import Tabletop.Proofs.Evaluation.Conservation
import Tabletop.Proofs.Evaluation.Limits
import Tabletop.Proofs.Evaluation.Order
import Tabletop.Proofs.Evaluation.Session
import Tabletop.Proofs.Rolling.Pairs
import Tabletop.Proofs.Evaluation.Listing
import Tabletop.Proofs.Evaluation.Pairs
import Tabletop.Proofs.Notation.Marks
import Tabletop.Proofs.Notation.Names
import Tabletop.Proofs.Notation.Blanks
import Tabletop.Proofs.Notation.Digits
import Tabletop.Proofs.Notation.Sigma
import Tabletop.Proofs.Reading.Aliases
import Tabletop.Proofs.Reading.Fate
import Tabletop.Proofs.Rolling.Ranking
import Tabletop.Proofs.Rolling.Selected
import Tabletop.Proofs.Reading.Operands
import Tabletop.Proofs.Rolling.Yields
import Tabletop.Proofs.Rolling.Exploded
import Tabletop.Proofs.Rolling.Rerolled
import Tabletop.Proofs.Evaluation.Target
import Tabletop.Proofs.Breakdown.Faces
import Tabletop.Proofs.Breakdown.Figure
import Tabletop.Proofs.Breakdown.Groups
import Tabletop.Proofs.Evaluation.Breakdown
import Tabletop.Proofs.Text.Expanded
import Tabletop.Proofs.Evaluation.Aliases
import Tabletop.Proofs.Evaluation.Options
import Tabletop.Proofs.Rolling.Sums
import Tabletop.Proofs.Breakdown.Pools
import Tabletop.Proofs.Breakdown.Verdict
import Tabletop.Proofs.Evaluation.Pools
import Tabletop.Proofs.Evaluation.Verdict
import Tabletop.Proofs.Settings.Kept
import Tabletop.Proofs.Report.Data
import Tabletop.Proofs.Reading.Causes
import Tabletop.Proofs.Reading.Context
