import ArtifactSelection.Descriptor.Sample
import ArtifactSelection.Main
import ArtifactSelection.Proofs.Cache.Publication
import ArtifactSelection.Proofs.Cache.Interleaving
import ArtifactSelection.Proofs.Desk.Request
import ArtifactSelection.Session
import ArtifactSelection.Sketch
import ArtifactSelection.Proofs.Desk.Service
import ArtifactSelection.Proofs.Session.Effect
import ArtifactSelection.Proofs.Session.Run
import ArtifactSelection.Proofs.Attributes.Matching
import ArtifactSelection.Proofs.Selection.Choice
import ArtifactSelection.Proofs.Selection.Outcome
import ArtifactSelection.Proofs.Component.Offer
import ArtifactSelection.Proofs.Copy.Transformation
import ArtifactSelection.Proofs.Copy.Simulation
import ArtifactSelection.Proofs.Preparation.Debt
import ArtifactSelection.Proofs.Session.Accounting
import ArtifactSelection.Proofs.Session.History
import ArtifactSelection.Proofs.Session.Frame
import ArtifactSelection.Proofs.Descriptor.Consistency
import ArtifactSelection.Proofs.Descriptor.Lookup
import ArtifactSelection.Proofs.Descriptor.Universe
import ArtifactSelection.Proofs.Exclusion.Agreement
import ArtifactSelection.Proofs.Selection.Eligibility
import ArtifactSelection.Proofs.Session.Unfailing
import ArtifactSelection.Proofs.Command.Failure
import ArtifactSelection.Proofs.Exclusion.Combination
import ArtifactSelection.Proofs.Exclusion.Spelling
import ArtifactSelection.Proofs.Copy.Composition
import ArtifactSelection.Proofs.Copy.Chain
import ArtifactSelection.Proofs.Selection.Listing
import ArtifactSelection.Proofs.Attributes.Overlay
import ArtifactSelection.Proofs.Selection.Filtering
import ArtifactSelection.Proofs.Selection.Relabelling
import ArtifactSelection.Proofs.Session.Candidates
import ArtifactSelection.Proofs.Variant.FirstWins
import ArtifactSelection.Proofs.Selection.Irrelevance
import ArtifactSelection.Proofs.Copy.Sharing
import ArtifactSelection.Proofs.Cache.FirstSuccess
import ArtifactSelection.Proofs.Selection.Parallel
import ArtifactSelection.Proofs.Attributes.Algebra
import ArtifactSelection.Proofs.Descriptor.Fidelity
import ArtifactSelection.Proofs.Selection.Titles
import ArtifactSelection.Proofs.Session.Agreement
import ArtifactSelection.Proofs.Sketch.Declaration
import ArtifactSelection.Proofs.Descriptor.FirstProblem
import ArtifactSelection.Value.Token
import ArtifactSelection.Value.Reader
import ArtifactSelection.Proofs.Component.Coordinate
import ArtifactSelection.Proofs.Failure.Context
import ArtifactSelection.Value.TextFormat
import ArtifactSelection.Proofs.Component.Places
import ArtifactSelection.Proofs.Value.Scanning
import ArtifactSelection.Proofs.Value.Reading
import ArtifactSelection.Proofs.Value.RoundTrip
import ArtifactSelection.Proofs.Selection.Reissue
import ArtifactSelection.Proofs.Descriptor.Reissue
import ArtifactSelection.Proofs.Session.Reissue
import ArtifactSelection.Command.Printing
import ArtifactSelection.Proofs.Command.Format
import ArtifactSelection.Proofs.Command.Lookup
import ArtifactSelection.Proofs.Command.Rules
import ArtifactSelection.Proofs.Settings.Loading
import ArtifactSelection.Proofs.Selection.Scratch
import ArtifactSelection.Proofs.Selection.Resolution
