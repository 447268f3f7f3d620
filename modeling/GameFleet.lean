import GameFleet.Actor
import GameFleet.Actor.Counter
import GameFleet.Autoscaling
import GameFleet.Backoff
import GameFleet.Catalog
import GameFleet.Drill.Basic
import GameFleet.Drill.Perform
import GameFleet.Drill.Step
import GameFleet.Drill.Transcript
import GameFleet.Event
import GameFleet.Json.Document
import GameFleet.Json.Merge
import GameFleet.Json.Reading
import GameFleet.Json.Value
import GameFleet.Manifest
import GameFleet.Naming
import GameFleet.Pass.Autoscalers
import GameFleet.Pass.Basic
import GameFleet.Pass.Cleanup
import GameFleet.Pass.Collections
import GameFleet.Pass.GameServers
import GameFleet.Pass.Program
import GameFleet.Pass.Reconciler
import GameFleet.Pass.Reports
import GameFleet.Pass.Seeding
import GameFleet.Pass.Trigger
import GameFleet.Plane.Basic
import GameFleet.Plane.Fault
import GameFleet.Plane.Fleet
import GameFleet.Plane.Hand
import GameFleet.Plane.Hub
import GameFleet.Plane.Sample
import GameFleet.Plane.Shelf
import GameFleet.Port.Pool
import GameFleet.Port.Registry
import GameFleet.Proofs.Actor.Office
import GameFleet.Proofs.Actor.Order
import GameFleet.Proofs.Backoff
import GameFleet.Proofs.Collection.Alarms
import GameFleet.Proofs.Collection.Bounds
import GameFleet.Proofs.Collection.Convergence
import GameFleet.Proofs.Collection.Cooldown
import GameFleet.Proofs.Collection.Course
import GameFleet.Proofs.Collection.Failures
import GameFleet.Proofs.Collection.Intervention
import GameFleet.Proofs.Collection.Membership
import GameFleet.Proofs.Collection.Orphans
import GameFleet.Proofs.Collection.Provision
import GameFleet.Proofs.Collection.Recovery
import GameFleet.Proofs.Collection.Steps
import GameFleet.Proofs.Collection.Surplus
import GameFleet.Proofs.Collection.Triggers
import GameFleet.Proofs.Collection.Upkeep
import GameFleet.Proofs.Collection.Writers
import GameFleet.Proofs.Digits
import GameFleet.Proofs.GameServer.Lodgers
import GameFleet.Proofs.GameServer.Rounds
import GameFleet.Proofs.GameServer.Triggers
import GameFleet.Proofs.Json.Record
import GameFleet.Proofs.Json.Text
import GameFleet.Proofs.Pass.Alone
import GameFleet.Proofs.Pass.Attempts
import GameFleet.Proofs.Pass.Contract
import GameFleet.Proofs.Pass.Custody
import GameFleet.Proofs.Pass.Deeds
import GameFleet.Proofs.Pass.Drained
import GameFleet.Proofs.Pass.Duties
import GameFleet.Proofs.Pass.Lone
import GameFleet.Proofs.Pass.Requests
import GameFleet.Proofs.Plane.Abreast
import GameFleet.Proofs.Plane.Chronicle
import GameFleet.Proofs.Plane.Crew
import GameFleet.Proofs.Plane.Herald
import GameFleet.Proofs.Plane.Household
import GameFleet.Proofs.Plane.Serving
import GameFleet.Proofs.Plane.Station
import GameFleet.Proofs.Plane.World
import GameFleet.Proofs.Port.Balance
import GameFleet.Proofs.Port.Circuit
import GameFleet.Proofs.Port.Claims
import GameFleet.Proofs.Port.Desk
import GameFleet.Proofs.Port.Estate
import GameFleet.Proofs.Port.Ledger
import GameFleet.Proofs.Port.Manor
import GameFleet.Proofs.Port.Order
import GameFleet.Proofs.Port.Passes
import GameFleet.Proofs.Port.Refunds
import GameFleet.Proofs.Port.Registry
import GameFleet.Proofs.Port.Restart
import GameFleet.Proofs.Port.Service
import GameFleet.Proofs.Port.Supply
import GameFleet.Proofs.Port.Sweep
import GameFleet.Proofs.Port.Tenancy
import GameFleet.Proofs.Queue.Bells
import GameFleet.Proofs.Queue.Delays
import GameFleet.Proofs.Queue.Lifecycle
import GameFleet.Proofs.Queue.Retries
import GameFleet.Proofs.Queue.Sound
import GameFleet.Proofs.Queue.Staff
import GameFleet.Proofs.Queue.Summons
import GameFleet.Proofs.Queue.WaitingRoom
import GameFleet.Proofs.Queue.Workforce
import GameFleet.Proofs.Queue.Workshop
import GameFleet.Proofs.Resource.KeyText
import GameFleet.Proofs.Resource.RoundTrip
import GameFleet.Proofs.Store.Calls
import GameFleet.Proofs.Store.Clients
import GameFleet.Proofs.Store.Contention
import GameFleet.Proofs.Store.History
import GameFleet.Proofs.Store.Mirror
import GameFleet.Proofs.Store.Replay
import GameFleet.Proofs.Store.Serial
import GameFleet.Proofs.Store.Vanishing
import GameFleet.Proofs.Table
import GameFleet.Proofs.Time.Stamp
import GameFleet.Proofs.Uid
import GameFleet.Queue.Basic
import GameFleet.Queue.Bell
import GameFleet.Queue.Controller
import GameFleet.Queue.Delayed
import GameFleet.Queue.Session
import GameFleet.Queue.Shared
import GameFleet.Resource.Collection
import GameFleet.Resource.GameServer
import GameFleet.Resource.Key
import GameFleet.Resource.Kind
import GameFleet.Resource.Labels
import GameFleet.Resource.Meta
import GameFleet.Resource.Pod
import GameFleet.Resource.Template
import GameFleet.Retry
import GameFleet.Rounding
import GameFleet.Schedule
import GameFleet.Settings
import GameFleet.Signal
import GameFleet.Store.Basic
import GameFleet.Store.Bench
import GameFleet.Store.Feed
import GameFleet.Store.Informer
import GameFleet.Table
import GameFleet.Text.Blank
import GameFleet.Text.Hidden
import GameFleet.Text.Quoted
import GameFleet.Time.Calendar
import GameFleet.Time.Instant
import GameFleet.Time.Stamp
import GameFleet.Uid
import GameFleet.Workload
