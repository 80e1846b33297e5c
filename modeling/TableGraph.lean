import TableGraph.Document.Loading
import TableGraph.Document.Saving
import TableGraph.Document.Settings
import TableGraph.Iri.Spelling
import TableGraph.Visitor.Export
import TableGraph.Visitor.Preview
import TableGraph.Proofs.Cursor.Reach
import TableGraph.Proofs.Mapping.Trees
import TableGraph.Proofs.Emission.Offers
import TableGraph.Proofs.Emission.Relations
import TableGraph.Proofs.Emission.Agreement
import TableGraph.Proofs.Emission.Refusal
import TableGraph.Proofs.Iri.Repairable
import TableGraph.Proofs.Emission.Settled
import TableGraph.Proofs.Emission.RowsAndRecords
import TableGraph.Proofs.Document.Codec
import TableGraph.Proofs.Document.Regular
import TableGraph.Proofs.Document.Loaded
import TableGraph.Proofs.Document.RoundTrip
import TableGraph.Proofs.Iri.Components
import TableGraph.Proofs.Iri.Resolved
import TableGraph.Proofs.BlankLabel.Labels
import TableGraph.Proofs.BlankLabel.Apart
import TableGraph.Proofs.Naming.WellFormed
import TableGraph.Proofs.Naming.Languages
import TableGraph.Proofs.Naming.Production
import TableGraph.Proofs.Emission.Invariants
import TableGraph.Proofs.Emission.WellFormed
import TableGraph.Proofs.Emission.Locality
import TableGraph.Proofs.Graph.Dedupe
import TableGraph.Proofs.Visitor.Batches
import TableGraph.Proofs.Visitor.Delivery
import TableGraph.Proofs.Visitor.Sampling
import TableGraph.Proofs.Visitor.Complete
import TableGraph.Proofs.Visitor.Calls
import TableGraph.Proofs.Visitor.Refusal
import TableGraph.Proofs.History.Notes
import TableGraph.Proofs.History.Steps
import TableGraph.Proofs.History.Constants
import TableGraph.Proofs.History.Again
import TableGraph.Proofs.Visitor.Announcements
import TableGraph.Proofs.Document.Rereading
import TableGraph.Proofs.Iri.Endings
import TableGraph.Proofs.Document.Heads
import TableGraph.Proofs.Json.Changes
import TableGraph.Proofs.Naming.PrefixedNames
import TableGraph.Proofs.Document.Skipping
import TableGraph.Proofs.Iri.Repaired
import TableGraph.Proofs.BlankLabel.Sanitizing
import TableGraph.Proofs.Iri.Candidates
import TableGraph.Proofs.Iri.Directories
import TableGraph.Proofs.Naming.BaseNames
import TableGraph.Proofs.BlankLabel.Cells
import TableGraph.Proofs.Document.BaseParts
import TableGraph.Proofs.Json.Nesting
import TableGraph.Proofs.Json.Texts
import TableGraph.Proofs.Document.Nesting
import TableGraph.Proofs.Document.SavedTexts
import TableGraph.Proofs.Naming.Recognition
import TableGraph.Proofs.Graph.Calls
import TableGraph.Proofs.Visitor.Records
import TableGraph.Proofs.Document.DeclaredLabels
import TableGraph.Proofs.Mapping.FanOut
import TableGraph.Proofs.Cursor.Walks
import TableGraph.Proofs.Vocabulary.Histories
