import Conform.Catalog
import Conform.Options.Reader
import Conform.Traversal.Edit
import Conform.Wire
import Conform.Proofs.Conformance.Acceptance
import Conform.Proofs.Wire.RoundTrip
import Conform.Proofs.Revalidation.Ambiguity
import Conform.Proofs.Traversal.Completeness
import Conform.Proofs.Traversal.Once
import Conform.Proofs.Traversal.Verdict
import Conform.Proofs.Traversal.Placing
import Conform.Proofs.Traversal.Instances
import Conform.Proofs.Revalidation.Trimmed
import Conform.Proofs.Attempt.Termination
import Conform.Proofs.Revalidation.Lenient
import Conform.Proofs.Attempt.Concord
import Conform.Proofs.Attempt.Carrying
import Conform.Proofs.Attempt.Equality
import Conform.Proofs.Violation.Located
import Conform.Proofs.Catalog.Settling
import Conform.Proofs.Catalog.History
import Conform.Proofs.Wire.Renewal
import Conform.Proofs.Wire.Intersections
import Conform.Proofs.Discriminator.Alone
import Conform.Proofs.Attempt.Accounted
import Conform.Proofs.Wire.Written
import Conform.Proofs.Discriminator.Selection
import Conform.Proofs.Validator.Order
import Conform.Proofs.Traversal.Results
import Conform.Proofs.Revalidation.Conjunction
import Conform.Proofs.Number.Bounds
import Conform.Proofs.Number.Decimals
