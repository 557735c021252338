import CorridorTrust.Bundle.Judgement
import CorridorTrust.Bundle.Reason
import CorridorTrust.Bundle.Request
import CorridorTrust.Bundle.Verdict
import CorridorTrust.Codec.Base64
import CorridorTrust.Codec.Hex
import CorridorTrust.Command.Arguments
import CorridorTrust.Command.Invocation
import CorridorTrust.Command.Program
import CorridorTrust.Command.Sources
import CorridorTrust.Corridor.Catalog
import CorridorTrust.Corridor.Role
import CorridorTrust.Corridor.Tag
import CorridorTrust.Curve.Ed25519
import CorridorTrust.Curve.Edwards
import CorridorTrust.Curve.PrimeField
import CorridorTrust.Decimal.Binary64
import CorridorTrust.Decimal.Shortest
import CorridorTrust.Digest.Sha2
import CorridorTrust.Digest.Sha256
import CorridorTrust.Digest.Sha512
import CorridorTrust.Evidence.KeySet
import CorridorTrust.Evidence.Payload
import CorridorTrust.Evidence.Seal
import CorridorTrust.Evidence.Verifier
import CorridorTrust.Fault
import CorridorTrust.Json.Numeral
import CorridorTrust.Json.Printer
import CorridorTrust.Json.Record
import CorridorTrust.Json.Token
import CorridorTrust.Json.Tree
import CorridorTrust.Json.Value
import CorridorTrust.Main
import CorridorTrust.Publication.Entry
import CorridorTrust.Publication.Index
import CorridorTrust.Publication.Manifest
import CorridorTrust.Publication.Sandbox
import CorridorTrust.Publication.Snapshot
import CorridorTrust.Service.Rpc
import CorridorTrust.Service.Session
import CorridorTrust.Service.Settings
import CorridorTrust.Service.State
import CorridorTrust.Storage.FileFault
import CorridorTrust.Storage.FileTree
import CorridorTrust.Storage.Folder
import CorridorTrust.Storage.Path
import CorridorTrust.Storage.Store
import CorridorTrust.Text.Blank
import CorridorTrust.Text.Graphic
import CorridorTrust.Text.Match
import CorridorTrust.Text.Quoted
import CorridorTrust.Text.Utf8
import CorridorTrust.Time.Date
import CorridorTrust.Time.Instant
import CorridorTrust.Time.Timestamp
import CorridorTrust.Proofs.Json.FiniteMap
import CorridorTrust.Proofs.Json.Reading
import CorridorTrust.Proofs.Evidence.Reading
import CorridorTrust.Proofs.Bundle.Checkpoints
import CorridorTrust.Proofs.Publication.Loading
import CorridorTrust.Proofs.Publication.Snapshot
import CorridorTrust.Proofs.Service.Operation
import CorridorTrust.Proofs.Service.Interleaving
import CorridorTrust.Proofs.Decimal.Digits
import CorridorTrust.Proofs.Decimal.Rounding
import CorridorTrust.Proofs.Decimal.Shortest
import CorridorTrust.Proofs.Json.Numeral
import CorridorTrust.Proofs.Json.Printing
import CorridorTrust.Proofs.Bundle.Authenticity
import CorridorTrust.Proofs.Json.Legible
import CorridorTrust.Proofs.Bundle.Revocation
import CorridorTrust.Proofs.Service.Reloading
import CorridorTrust.Proofs.Json.Indentation
import CorridorTrust.Proofs.Codec.Base64
import CorridorTrust.Proofs.Evidence.Attachment
import CorridorTrust.Proofs.Time.Date
import CorridorTrust.Proofs.Time.Instant
import CorridorTrust.Proofs.Time.Timestamp
import CorridorTrust.Proofs.Codec.Hex
import CorridorTrust.Proofs.Publication.Identity
import CorridorTrust.Proofs.Text.Beginning
import CorridorTrust.Proofs.Bundle.Strictness
import CorridorTrust.Proofs.Service.Answering
import CorridorTrust.Proofs.Json.Restating
import CorridorTrust.Proofs.Evidence.KeyListing
import CorridorTrust.Proofs.Service.KeyPublication
import CorridorTrust.Proofs.Text.Lines
import CorridorTrust.Proofs.Service.Responses
import CorridorTrust.Proofs.Service.Session
import CorridorTrust.Proofs.Text.Parts
import CorridorTrust.Proofs.Corridor.Naming
import CorridorTrust.Proofs.Publication.Views
import CorridorTrust.Proofs.Publication.Lookup
import CorridorTrust.Proofs.Storage.Containment
import CorridorTrust.Proofs.Evidence.Canonical
import CorridorTrust.Proofs.Service.Counting
import CorridorTrust.Proofs.Publication.Payloads
import CorridorTrust.Proofs.Service.Loading
import CorridorTrust.Proofs.Command.Tokens
import CorridorTrust.Proofs.Command.Verdicts
import CorridorTrust.Proofs.Time.RoundTrip
import CorridorTrust.Proofs.Publication.Manifests
import CorridorTrust.Proofs.Time.Chronology
import CorridorTrust.Proofs.Time.Comparison
import CorridorTrust.Proofs.Evidence.KeyDocument
import CorridorTrust.Proofs.Bundle.Relevance
import CorridorTrust.Proofs.Corridor.Discriminators
import CorridorTrust.Proofs.Corridor.Detection
import CorridorTrust.Proofs.Json.Fields
import CorridorTrust.Proofs.Service.Words
import CorridorTrust.Proofs.Service.Layering
