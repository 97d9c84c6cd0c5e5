import DeviceAuth.Api.Client
import DeviceAuth.Api.Server
import DeviceAuth.Listen.SocketAddress
import DeviceAuth.OAuth.ServiceToken
import DeviceAuth.Settings.Validate
import DeviceAuth.Telemetry
import DeviceAuth.Proofs.Identifier
import DeviceAuth.Proofs.Secret
import DeviceAuth.Proofs.Store.Table
import DeviceAuth.Proofs.Program
import DeviceAuth.Proofs.Records
import DeviceAuth.Proofs.Service.Basic
import DeviceAuth.Proofs.Service.Session
import DeviceAuth.Proofs.Service.Registration
import DeviceAuth.Proofs.Service.Renewal
import DeviceAuth.Proofs.Service.UserDevices
import DeviceAuth.Proofs.Integrity
import DeviceAuth.Proofs.Json.Literal
import DeviceAuth.Proofs.Json.Number
import DeviceAuth.Proofs.Json.Written
import DeviceAuth.Proofs.Time.Calendar
import DeviceAuth.Proofs.Time.Instant
import DeviceAuth.Proofs.Json.Decode
import DeviceAuth.Proofs.Record
import DeviceAuth.Proofs.Store.Disk
import DeviceAuth.Proofs.Store.SameRecords
import DeviceAuth.Proofs.Store.Snapshot
import DeviceAuth.Proofs.Store.Refinement
import DeviceAuth.Proofs.Store.Failure
import DeviceAuth.Proofs.Store.Keys
import DeviceAuth.Proofs.Store.Rewriting
import DeviceAuth.Proofs.Store.Commuting
import DeviceAuth.Proofs.Interleaving
import DeviceAuth.Proofs.Section
import DeviceAuth.Proofs.Service.Sections
import DeviceAuth.Proofs.Exclusion
import DeviceAuth.Proofs.Ownership
import DeviceAuth.Proofs.Trace
import DeviceAuth.Proofs.Service.Trace
import DeviceAuth.Proofs.Contention
import DeviceAuth.Proofs.Authority
import DeviceAuth.Proofs.Serialization
import DeviceAuth.Proofs.Supersession
import DeviceAuth.Proofs.Tidiness
import DeviceAuth.Proofs.Service.Strays
import DeviceAuth.Proofs.Locality
import DeviceAuth.Proofs.Service.Independence
import DeviceAuth.Proofs.Service.Verifier
import DeviceAuth.Proofs.Api.Bearer
import DeviceAuth.Proofs.Api.Server
import DeviceAuth.Proofs.Lifetime
import DeviceAuth.Proofs.Retreat
import DeviceAuth.Proofs.Service.Failure
import DeviceAuth.Proofs.Api.Relay
import DeviceAuth.Proofs.Api.Report
import DeviceAuth.Proofs.Json.Value
import DeviceAuth.Proofs.OAuth.Refusal
import DeviceAuth.Proofs.Service.Message
import DeviceAuth.Proofs.Service.Answer
import DeviceAuth.Proofs.Api.Wire
import DeviceAuth.Proofs.Api.Transparency
import DeviceAuth.Proofs.OAuth.ServiceToken
import DeviceAuth.Proofs.Store.Interruption
import DeviceAuth.Proofs.Store.Masking
import DeviceAuth.Proofs.Lockstep
import DeviceAuth.Proofs.Service.Concealment
import DeviceAuth.Proofs.Service.Deletion
import DeviceAuth.Proofs.Service.Listing
import DeviceAuth.Proofs.Http.RetryAfter
import DeviceAuth.Proofs.OAuth.Failure
import DeviceAuth.Proofs.OAuth.AuthorizationUrl
import DeviceAuth.Proofs.OAuth.OwnerClaim
import DeviceAuth.Proofs.OAuth.Acceptance
import DeviceAuth.Proofs.Service.Expiry
import DeviceAuth.Proofs.Status
import DeviceAuth.Proofs.Store.Race
import DeviceAuth.Proofs.Api.WellKnown
import DeviceAuth.Proofs.Json.Grammar
import DeviceAuth.Proofs.Json.Parser
import DeviceAuth.Proofs.Json.Document
import DeviceAuth.Proofs.Api.WholeBody
import DeviceAuth.Proofs.Identifier.Length
import DeviceAuth.Proofs.Settings.Serving
import DeviceAuth.Proofs.Store.Contents
import DeviceAuth.Proofs.Store.Neighbours
import DeviceAuth.Proofs.Text.Fields
import DeviceAuth.Proofs.Scope
import DeviceAuth.Proofs.Service.Credentials
