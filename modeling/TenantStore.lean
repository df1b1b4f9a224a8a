import TenantStore.Bytes
import TenantStore.OrderedMap
import TenantStore.Sha256
import TenantStore.Text.Plain
import TenantStore.ContentId.Document
import TenantStore.Context
import TenantStore.Json.Reading
import TenantStore.Json.Writing
import TenantStore.Json.Cbor
import TenantStore.Query.Filter
import TenantStore.Query.Options
import TenantStore.Block.Listing
import TenantStore.Reference.Ledger
import TenantStore.Index.Store
import TenantStore.Message.Repair
import TenantStore.Payload.Store
import TenantStore.Event.Log
import TenantStore.Table.Messages
import TenantStore.Table.Payloads
import TenantStore.Table.Events
import TenantStore.Table.Rows
import TenantStore.Storage.Basic
import TenantStore.Proofs.Key.Ranges
import TenantStore.Proofs.OrderedMap
import TenantStore.Proofs.Json.RoundTrip
import TenantStore.Proofs.Index.Query
import TenantStore.Proofs.Message.Overlapping
import TenantStore.Proofs.Message.Paging
import TenantStore.Proofs.Message.Agreement
import TenantStore.Proofs.Message.ReadBack
import TenantStore.Proofs.Message.FailedPuts
import TenantStore.Proofs.Payload.Retention
import TenantStore.Proofs.Payload.FailedReadings
import TenantStore.Proofs.Payload.Balance
import TenantStore.Proofs.Payload.Imports
import TenantStore.Proofs.Message.Verdicts
import TenantStore.Proofs.Message.Reconciliation
import TenantStore.Proofs.Message.StaleRepairs
import TenantStore.Proofs.Message.StoppedSteps
import TenantStore.Proofs.Event.Refinement
import TenantStore.Proofs.Table.Payloads
import TenantStore.Proofs.Payload.Agreement
import TenantStore.Proofs.Table.Events
import TenantStore.Proofs.Event.Agreement
import TenantStore.Proofs.Database.Locality
import TenantStore.Proofs.Index.Locality
import TenantStore.Proofs.Message.Locality
import TenantStore.Proofs.Database.Isolation
import TenantStore.Proofs.Payload.Locality
import TenantStore.Proofs.Payload.Sessions
import TenantStore.Proofs.Table.Locality
import TenantStore.Proofs.Message.Requests
import TenantStore.Proofs.Tenants
import TenantStore.Proofs.Event.Locality
import TenantStore.Proofs.SharedDatabase
import TenantStore.Proofs.Message.Contents
import TenantStore.Proofs.Message.Determined
import TenantStore.Proofs.Database.Refusal
import TenantStore.Proofs.StoppedStores
import TenantStore.Proofs.Block.Partitions
import TenantStore.Proofs.Block.Walks
import TenantStore.Proofs.Table.Pages
import TenantStore.Proofs.Message.LastWrites
import TenantStore.Proofs.Message.Settling
import TenantStore.Proofs.Message.Identity
import TenantStore.Proofs.Index.ValueOrder
import TenantStore.Proofs.Index.ScanRounds
import TenantStore.Proofs.Index.WrittenRecords
import TenantStore.Proofs.Table.Translation
import TenantStore.Proofs.Table.FilterOrder
import TenantStore.Proofs.Message.PageSizes
