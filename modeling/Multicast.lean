import Multicast.Address
import Multicast.Address.V4
import Multicast.Address.V6
import Multicast.Audit.Record
import Multicast.Audit.Timestamp
import Multicast.Cache.Device
import Multicast.Cache.Edit
import Multicast.Cache.Error
import Multicast.Cache.Fleet
import Multicast.Cache.Group
import Multicast.Cache.Member
import Multicast.Cache.Registry
import Multicast.Cache.Route
import Multicast.CommandLine
import Multicast.Config
import Multicast.Handle
import Multicast.Hardware
import Multicast.Hardware.Call
import Multicast.Hardware.Entry
import Multicast.Hardware.Status
import Multicast.Id
import Multicast.Json.Document
import Multicast.Json.Number
import Multicast.Json.Printer
import Multicast.Json.Shape
import Multicast.Json.Value
import Multicast.Log
import Multicast.Log.Filter
import Multicast.Main
import Multicast.Numeral
import Multicast.Orchestrator
import Multicast.Orchestrator.Act
import Multicast.Orchestrator.Error
import Multicast.Orchestrator.Group
import Multicast.Orchestrator.Member
import Multicast.Orchestrator.Route
import Multicast.Port
import Multicast.Proofs.Acceptance
import Multicast.Proofs.Accounts
import Multicast.Proofs.AddressText
import Multicast.Proofs.Admission
import Multicast.Proofs.Agreement
import Multicast.Proofs.Assembly
import Multicast.Proofs.Attributes
import Multicast.Proofs.Balance
import Multicast.Proofs.Bench
import Multicast.Proofs.Bisimulation
import Multicast.Proofs.Blameless
import Multicast.Proofs.Blueprint
import Multicast.Proofs.Books
import Multicast.Proofs.CacheStep
import Multicast.Proofs.Calls
import Multicast.Proofs.Calm
import Multicast.Proofs.Cause
import Multicast.Proofs.Change
import Multicast.Proofs.Closure
import Multicast.Proofs.Commit
import Multicast.Proofs.Commutation
import Multicast.Proofs.Configuration
import Multicast.Proofs.Confirmation
import Multicast.Proofs.Consistency
import Multicast.Proofs.Correspondence
import Multicast.Proofs.Delivery
import Multicast.Proofs.Dismantle
import Multicast.Proofs.Drift
import Multicast.Proofs.Dump
import Multicast.Proofs.EndToEnd
import Multicast.Proofs.Enrolment
import Multicast.Proofs.ExternalForm
import Multicast.Proofs.Feasibility
import Multicast.Proofs.Foresight
import Multicast.Proofs.Founding
import Multicast.Proofs.Frame
import Multicast.Proofs.Freshness
import Multicast.Proofs.Handle
import Multicast.Proofs.Holdings
import Multicast.Proofs.InPlace
import Multicast.Proofs.Injection
import Multicast.Proofs.Integrity
import Multicast.Proofs.Inversion
import Multicast.Proofs.Isolation
import Multicast.Proofs.JsonText
import Multicast.Proofs.JsonUnique
import Multicast.Proofs.KeyOrder
import Multicast.Proofs.Ledger
import Multicast.Proofs.Locality
import Multicast.Proofs.Mirror
import Multicast.Proofs.Operation
import Multicast.Proofs.Passage
import Multicast.Proofs.Populate
import Multicast.Proofs.PortOrder
import Multicast.Proofs.PortText
import Multicast.Proofs.Precondition
import Multicast.Proofs.Printout
import Multicast.Proofs.RecordText
import Multicast.Proofs.Recovery
import Multicast.Proofs.References
import Multicast.Proofs.Refusal
import Multicast.Proofs.Rendering
import Multicast.Proofs.Reroute
import Multicast.Proofs.Resumption
import Multicast.Proofs.Rewrite
import Multicast.Proofs.Roster
import Multicast.Proofs.RouteHistory
import Multicast.Proofs.RouteImage
import Multicast.Proofs.RouteText
import Multicast.Proofs.RouteView
import Multicast.Proofs.Script
import Multicast.Proofs.Session
import Multicast.Proofs.Snapshot
import Multicast.Proofs.Sound
import Multicast.Proofs.Steady
import Multicast.Proofs.Step
import Multicast.Proofs.SwitchStep
import Multicast.Proofs.Table
import Multicast.Proofs.TakingBack
import Multicast.Proofs.Tally
import Multicast.Proofs.Tenancy
import Multicast.Proofs.TimestampText
import Multicast.Proofs.Trail
import Multicast.Proofs.Triple
import Multicast.Proofs.Twin
import Multicast.Proofs.Unrecorded
import Multicast.Proofs.Upkeep
import Multicast.RouteKey
import Multicast.Simulation
import Multicast.SortKey
import Multicast.Switch
import Multicast.Table
import Multicast.Testbed
