import RootFinding.FixedPoint.Closeness
import RootFinding.Formula.Basic
import RootFinding.Linear.JacobianValue
import RootFinding.Session.Basic
import RootFinding.Style.Registry
import RootFinding.Proofs.Number.Order
import RootFinding.Proofs.Number.Rounding
import RootFinding.Proofs.Number.Symmetry
import RootFinding.Proofs.Runs
import RootFinding.Proofs.Pairs
import RootFinding.Proofs.Bracketing.Passes
import RootFinding.Proofs.Bracketing.Shrinking
import RootFinding.Proofs.Bracketing.Budget
import RootFinding.Proofs.Bracketing.Doubles
import RootFinding.Proofs.Bracketing.Enclosure
import RootFinding.Proofs.Bracketing.Exhausted
import RootFinding.Proofs.Bracketing.Refused
import RootFinding.Proofs.Bracketing.Reversed
import RootFinding.Proofs.Iteration.FirstPass
import RootFinding.Proofs.Iteration.Criteria
import RootFinding.Proofs.Iteration.Shape
import RootFinding.Proofs.Iteration.Converged
import RootFinding.Proofs.FixedPoint.Stages
import RootFinding.Proofs.FixedPoint.Restart
import RootFinding.Proofs.FixedPoint.Vectors
import RootFinding.Proofs.FixedPoint.ZeroSteps
import RootFinding.Proofs.FixedPoint.Secants
import RootFinding.Proofs.Iteration.Criterion
import RootFinding.Proofs.FixedPoint.Exact
import RootFinding.Proofs.Bracketing.Symmetric
import RootFinding.Proofs.Iteration.Endings
import RootFinding.Proofs.Reporting.Courses
import RootFinding.Proofs.Reporting.Observed
import RootFinding.Proofs.Truncation.Forks
import RootFinding.Proofs.Truncation.Methods
import RootFinding.Proofs.Bracketing.Raised
import RootFinding.Proofs.Truncation.Looser
import RootFinding.Proofs.Truncation.Solvers
import RootFinding.Proofs.Truncation.Truncated
import RootFinding.Proofs.Counting.Unreported
import RootFinding.Proofs.Counting.Counted
import RootFinding.Proofs.Counting.Methods
import RootFinding.Proofs.Counting.Solvers
import RootFinding.Proofs.Bracketing.Overrun
import RootFinding.Proofs.FixedPoint.Accelerated
import RootFinding.Proofs.FixedPoint.Affine
import RootFinding.Proofs.Linear.Settled
import RootFinding.Proofs.Linear.Exact
import RootFinding.Proofs.System.ConstantSlope
import RootFinding.Proofs.Number.Finite
import RootFinding.Proofs.FixedPoint.Finite
import RootFinding.Proofs.Bracketing.Divisors
import RootFinding.Proofs.Iteration.Questions
import RootFinding.Proofs.Iteration.Lengths
import RootFinding.Proofs.System.Families
import RootFinding.Proofs.Decoupled.Leads
import RootFinding.Proofs.Decoupled.Components
import RootFinding.Proofs.Decoupled.Solvers
import RootFinding.Proofs.Bracketing.Undefined
import RootFinding.Proofs.Grid.Stretching
import RootFinding.Proofs.Linear.Storage
import RootFinding.Proofs.Iteration.Misfits
import RootFinding.Proofs.System.Dimension
import RootFinding.Proofs.Reporting.Transcripts
import RootFinding.Proofs.Reporting.Iterations
import RootFinding.Proofs.Reporting.Complete
import RootFinding.Proofs.Number.Integers
import RootFinding.Proofs.Session.Configured
import RootFinding.Proofs.Style.Chains
import RootFinding.Proofs.Style.Grounded
import RootFinding.Proofs.FixedPoint.SecantEquation
import RootFinding.Proofs.Grid.Closeness
import RootFinding.Proofs.Grid.Tested
import RootFinding.Proofs.Style.Failures
import RootFinding.Proofs.Reporting.Styles
import RootFinding.Proofs.Style.Fronts
import RootFinding.Proofs.Bracketing.Confined
import RootFinding.Proofs.Bracketing.Halvings
import RootFinding.Proofs.Value.Shown
