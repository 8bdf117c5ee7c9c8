import ViewMarkup.Main
import ViewMarkup.Outcome
import ViewMarkup.Proofs.Constraint.Placement
import ViewMarkup.Proofs.Rendered.InStep
import ViewMarkup.Proofs.Constraint.Meaning
import ViewMarkup.Proofs.Format.Grammar
import ViewMarkup.Proofs.Format.Writing
import ViewMarkup.Proofs.Format.Choice
import ViewMarkup.Proofs.Json.Replace
import ViewMarkup.Proofs.Template.Compose
import ViewMarkup.Proofs.Binding.Stale
import ViewMarkup.Proofs.Template.Spelling
import ViewMarkup.Proofs.Binding.Dependents
import ViewMarkup.Proofs.Document.Listing
import ViewMarkup.Proofs.Document.Parts
import ViewMarkup.Proofs.Document.KeyPath
import ViewMarkup.Proofs.Build.Parts
import ViewMarkup.Proofs.Error.Place
import ViewMarkup.Proofs.Rendered.FirstFault
import ViewMarkup.Proofs.View.Skeleton
import ViewMarkup.Proofs.Build.Listing
import ViewMarkup.Proofs.Rendered.Mirror
import ViewMarkup.Proofs.Rendered.Alike
import ViewMarkup.Proofs.Rendered.Verdict
import ViewMarkup.Proofs.Rendered.Outcome
import ViewMarkup.Proofs.Rendered.Pending
import ViewMarkup.Proofs.View.Legible
import ViewMarkup.Proofs.Constraint.Closed
import ViewMarkup.Proofs.Rendered.Closed
import ViewMarkup.Proofs.Build.Origin
import ViewMarkup.Proofs.Rendered.Frame
import ViewMarkup.Proofs.Rendered.Settled
import ViewMarkup.Proofs.Constraint.Accepted
import ViewMarkup.Proofs.Build.Anonymous
import ViewMarkup.Proofs.Rendered.Grounded
import ViewMarkup.Proofs.Rendered.Solved
import ViewMarkup.Proofs.CommandLine.Change
import ViewMarkup.Proofs.Template.Writing
import ViewMarkup.Proofs.Format.Viable
import ViewMarkup.Proofs.Constraint.Priority
import ViewMarkup.Proofs.Constraint.Finite
import ViewMarkup.Proofs.Template.Openings
import ViewMarkup.Proofs.Rendered.Agreement
import ViewMarkup.Proofs.View.Walk
import ViewMarkup.Proofs.View.Bounds
import ViewMarkup.Proofs.View.Conversion
import ViewMarkup.Proofs.Template.Missing
import ViewMarkup.Proofs.Constraint.Spelling
import ViewMarkup.Proofs.Text.Similar
import ViewMarkup.Proofs.Document.Encoding
import ViewMarkup.Proofs.Document.Sources
import ViewMarkup.Proofs.Color
import ViewMarkup.Proofs.Text.Distance
import ViewMarkup.Proofs.Error.Label
