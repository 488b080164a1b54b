import KeyCustody.Cloud.Scripted
import KeyCustody.Main
import KeyCustody.Program
import KeyCustody.Proofs.Text.Order
import KeyCustody.Proofs.Transcript
import KeyCustody.Service.Scripted
import KeyCustody.Proofs.AliasImport.Protocol
import KeyCustody.Proofs.AliasImport.Difference
import KeyCustody.Proofs.ObjectLocation
import KeyCustody.Proofs.Inventory
import KeyCustody.Proofs.Remediation
import KeyCustody.Proofs.TagPages
import KeyCustody.Proofs.Text.Fields
import KeyCustody.Proofs.Text.Trimming
import KeyCustody.Proofs.Filter.Expression
import KeyCustody.Proofs.Filter.FieldBlanks
import KeyCustody.Proofs.Filter.Lookup
import KeyCustody.Proofs.Cloud.Requests
import KeyCustody.Proofs.Cloud.Settlement
import KeyCustody.Proofs.AliasImport.LiveAliases
import KeyCustody.Proofs.AliasImport.Retry
import KeyCustody.Proofs.KeyMerge
import KeyCustody.Proofs.Coupling
import KeyCustody.Proofs.Isolation
import KeyCustody.Proofs.SelectionSets
import KeyCustody.Proofs.MissingTags
import KeyCustody.Proofs.Session
import KeyCustody.Proofs.ReportPrinting
import KeyCustody.Proofs.Filter.NormalForm
import KeyCustody.Proofs.PagingBound
import KeyCustody.Proofs.Url.Path
import KeyCustody.Proofs.Url.Endpoint
import KeyCustody.Proofs.Cloud.SignedRequests
import KeyCustody.Proofs.Signing.Percent
import KeyCustody.Proofs.Signing.Headers
import KeyCustody.Proofs.Signing.CanonicalRequest
import KeyCustody.Proofs.Text.Decoding
import KeyCustody.Proofs.Json.Grammar
import KeyCustody.Proofs.Json.Leaves
import KeyCustody.Proofs.Json.Reading
import KeyCustody.Proofs.Json.Readers
import KeyCustody.Proofs.Json.Records
import KeyCustody.Proofs.Json.Meaning
import KeyCustody.Proofs.Json.Writing
import KeyCustody.Proofs.Cloud.Refusals
import KeyCustody.Proofs.Cloud.AliasListings
import KeyCustody.Proofs.Manifest
import KeyCustody.Proofs.Cloud.KeyListings
import KeyCustody.Proofs.Eligibility
import KeyCustody.Proofs.Toml.Keys
import KeyCustody.Proofs.Toml.Sections
import KeyCustody.Proofs.SettingLayers
import KeyCustody.Proofs.Filter.Opposites
import KeyCustody.Proofs.Text.Integer
import KeyCustody.Proofs.AliasImport.KeyNames
import KeyCustody.Proofs.Json.Indentation
import KeyCustody.Proofs.ReportText
import KeyCustody.Proofs.Coloring
import KeyCustody.Proofs.ColoredResults
import KeyCustody.Proofs.Calendar.Dates
import KeyCustody.Proofs.Calendar.Timestamps
import KeyCustody.Proofs.Signing.EncodedPaths
import KeyCustody.Proofs.Cloud.Answers
