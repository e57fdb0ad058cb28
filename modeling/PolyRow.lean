import PolyRow.Expr.Evaluation
import PolyRow.Expr.Text
import PolyRow.Json.Writer
import PolyRow.Wire.Decode
import PolyRow.Logging.Report
import PolyRow.Logging.Session
import PolyRow.Logging.Directory
import PolyRow.Proofs.Terms.Accumulation
import PolyRow.Proofs.Exact.Value
import PolyRow.Proofs.Exact.Construction
import PolyRow.Proofs.Exact.Comparison
import PolyRow.Proofs.Exact.ExtendedRat
import PolyRow.Proofs.Lowering.Meaning
import PolyRow.Proofs.Canonical.Listing
import PolyRow.Proofs.Canonical.Run
import PolyRow.Proofs.Double.Packing
import PolyRow.Proofs.Double.Rounding
import PolyRow.Proofs.Double.Arithmetic
import PolyRow.Proofs.Exact.Polynomial
import PolyRow.Proofs.Lowering.Partition
import PolyRow.Proofs.Lowering.Mirror
import PolyRow.Proofs.Lowering.Overflow
import PolyRow.Proofs.Double.Zero
import PolyRow.Proofs.Double.Whole
import PolyRow.Proofs.Wire.InRange
import PolyRow.Proofs.Wire.RoundTrip
import PolyRow.Proofs.Wire.Rows
import PolyRow.Proofs.Bounds.Independence
import PolyRow.Proofs.Logging.Installation
import PolyRow.Proofs.Lowering.Refusal
import PolyRow.Proofs.Lowering.Simplification
import PolyRow.Proofs.Algebra.Product
import PolyRow.Proofs.Algebra.Agreement
import PolyRow.Proofs.Lowering.Comparison
import PolyRow.Proofs.Algebra.Merging
import PolyRow.Proofs.Algebra.Builders
import PolyRow.Proofs.Algebra.Summation
import PolyRow.Proofs.Text.Numbers
import PolyRow.Proofs.Text.Words
import PolyRow.Proofs.Text.Reading
import PolyRow.Proofs.Text.Unambiguous
import PolyRow.Proofs.Double.Division
import PolyRow.Proofs.Algebra.Quotient
import PolyRow.Proofs.Algebra.Closeness
import PolyRow.Proofs.Algebra.Cancellation
import PolyRow.Proofs.Text.Numeral
import PolyRow.Proofs.Text.Rounded
import PolyRow.Proofs.Algebra.Tolerance
import PolyRow.Proofs.Algebra.Evaluation
import PolyRow.Proofs.Algebra.Degree
import PolyRow.Proofs.Lowering.Degree
import PolyRow.Proofs.Lowering.Monotonicity
import PolyRow.Proofs.Algebra.FreeMonoid
import PolyRow.Proofs.Text.Trimming
import PolyRow.Proofs.Logging.Settings
import PolyRow.Proofs.Double.Candidates
import PolyRow.Proofs.Wire.Accepted
import PolyRow.Proofs.Wire.Rearranged
