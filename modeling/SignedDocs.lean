import SignedDocs.Json.Parser
import SignedDocs.Json.Printer
import SignedDocs.NameSet
import SignedDocs.Text.LowerCase
import SignedDocs.Text.Quoted
import SignedDocs.Uuid
import SignedDocs.Date
import SignedDocs.Record.Codec
import SignedDocs.Presence
import SignedDocs.Revision
import SignedDocs.Media
import SignedDocs.ValueFormat
import SignedDocs.Header
import SignedDocs.FieldSet
import SignedDocs.JsonSchema.MetaSchema
import SignedDocs.DocType
import SignedDocs.Signers
import SignedDocs.Payload
import SignedDocs.Copyright
import SignedDocs.Links
import SignedDocs.Cluster
import SignedDocs.Cddl.File
import SignedDocs.Text.Place
import SignedDocs.Toml.Parser
import SignedDocs.Settings
import SignedDocs.Draft.Reading
import SignedDocs.Specification
import SignedDocs.Main
import SignedDocs.Proofs.Labels
import SignedDocs.Proofs.Coherence
import SignedDocs.Proofs.Rejection
import SignedDocs.Proofs.ExclusiveChoice
import SignedDocs.Proofs.Places
import SignedDocs.Proofs.References
import SignedDocs.Proofs.DepthFirst
import SignedDocs.Proofs.Resolution
import SignedDocs.Proofs.Acceptance
import SignedDocs.Proofs.Definitions
import SignedDocs.Proofs.ReferenceClosure
import SignedDocs.Proofs.StoredDefinitions
import SignedDocs.Proofs.EntryReading
import SignedDocs.Proofs.RecordNormalForms
import SignedDocs.Proofs.ClusterLookup
import SignedDocs.Proofs.ExcludedFields
import SignedDocs.Proofs.ReferenceBlocks
import SignedDocs.Proofs.DeclarationOrder
import SignedDocs.Proofs.GroupOffers
import SignedDocs.Proofs.ExitCodes
import SignedDocs.Proofs.KeptEntries
import SignedDocs.Proofs.Requirements
import SignedDocs.Proofs.CanonicalOrder
import SignedDocs.Proofs.Narrative
import SignedDocs.Proofs.LinkNames
import SignedDocs.Proofs.LinkResolution
import SignedDocs.Proofs.DocumentTypes
import SignedDocs.Proofs.StoredOutcomes
import SignedDocs.Proofs.TableExtension
import SignedDocs.Proofs.Attributions
import SignedDocs.Proofs.MarkedParts
import SignedDocs.Proofs.DocTypeTexts
import SignedDocs.Proofs.MalformedLinks
import SignedDocs.Proofs.ReportHistory
import SignedDocs.Proofs.CommentLines
import SignedDocs.Proofs.Enumerations
import SignedDocs.Proofs.SettingsTexts
import SignedDocs.Proofs.FindingMessages
