import AccessPolicy.Policy.Document
import AccessPolicy.Binding.Document
import AccessPolicy.Binding.Mapping
import AccessPolicy.Reconcile
import AccessPolicy.Cedar.Expr
import AccessPolicy.Cedar.Scope
import AccessPolicy.Cedar.Policy
import AccessPolicy.Cedar.Mapping
import AccessPolicy.Cedar.Source.Token
import AccessPolicy.Cedar.Source.Expr
import AccessPolicy.Cedar.Source.Policy
import AccessPolicy.Cedar.Source.Printer
import AccessPolicy.Proofs.Outcome
import AccessPolicy.Proofs.Distinct
import AccessPolicy.Proofs.Grouped
import AccessPolicy.Proofs.Fields
import AccessPolicy.Proofs.Text.Verbatim
import AccessPolicy.Proofs.Json.WellFormed
import AccessPolicy.Proofs.Json.Leaf
import AccessPolicy.Proofs.Json.Spelling
import AccessPolicy.Proofs.Json.RoundTrip
import AccessPolicy.Proofs.Json.Record
import AccessPolicy.Proofs.Policy.Document
import AccessPolicy.Proofs.Reconcile.Canonical
import AccessPolicy.Proofs.Reconcile.Pairing
import AccessPolicy.Proofs.Reconcile.Matching
import AccessPolicy.Proofs.Reconcile.Keyed
import AccessPolicy.Proofs.Reconcile.Rearranged
import AccessPolicy.Proofs.Reconcile.Unchanged
import AccessPolicy.Proofs.Reconcile.Displaced
import AccessPolicy.Proofs.Cedar.Expr.Literal
import AccessPolicy.Proofs.Cedar.Expr.Canonical
import AccessPolicy.Proofs.Cedar.Expr.RoundTrip
import AccessPolicy.Proofs.Cedar.Expr.Plain
import AccessPolicy.Proofs.Cedar.Expr.Positions
import AccessPolicy.Proofs.Cedar.Source.Quoted
import AccessPolicy.Proofs.Cedar.Expr.Normal
import AccessPolicy.Proofs.Cedar.Expr.Glob
import AccessPolicy.Proofs.Cedar.Scopes
import AccessPolicy.Proofs.Cedar.Admitted
import AccessPolicy.Proofs.Cedar.Members
import AccessPolicy.Proofs.Cedar.Literals
import AccessPolicy.Proofs.Cedar.Notes
import AccessPolicy.Proofs.Cedar.Pieces
import AccessPolicy.Proofs.Cedar.Expansion
import AccessPolicy.Proofs.Cedar.Document
import AccessPolicy.Proofs.Cedar.Failures
import AccessPolicy.Proofs.Cedar.Constraints
import AccessPolicy.Proofs.Cedar.Reading
import AccessPolicy.Proofs.Cedar.Gather
import AccessPolicy.Proofs.Cedar.Merging
import AccessPolicy.Proofs.Cedar.Reordered
import AccessPolicy.Proofs.Cedar.RoundTrip
import AccessPolicy.Proofs.Cedar.Effect
import AccessPolicy.Proofs.Cedar.Widening
import AccessPolicy.Proofs.Binding.Grants
import AccessPolicy.Proofs.Binding.Induced
import AccessPolicy.Proofs.Binding.Accumulation
import AccessPolicy.Proofs.Binding.Dropped
import AccessPolicy.Proofs.Binding.Lookup
import AccessPolicy.Proofs.Binding.Validation
import AccessPolicy.Proofs.Binding.Expansion
import AccessPolicy.Proofs.Binding.Regroup
import AccessPolicy.Proofs.Binding.Shadowed
import AccessPolicy.Proofs.Binding.Document
import AccessPolicy.Proofs.Policy.Mapped
import AccessPolicy.Proofs.Cedar.Expr.Reader
import AccessPolicy.Proofs.Cedar.Expr.Reads
import AccessPolicy.Proofs.Cedar.Expr.Display
import AccessPolicy.Proofs.Cedar.Expr.Unambiguous
