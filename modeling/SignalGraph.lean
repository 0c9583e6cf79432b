import SignalGraph.Export.Snapshot
import SignalGraph.Export.Tree
import SignalGraph.Graph.Edits
import SignalGraph.Graph.Poll
import SignalGraph.Json.Codec.Message
import SignalGraph.Json.Codec.Query
import SignalGraph.Json.Reader
import SignalGraph.Json.Writer
import SignalGraph.Proofs.Agreement
import SignalGraph.Proofs.Allocation
import SignalGraph.Proofs.ArrivingDevices
import SignalGraph.Proofs.Cascade
import SignalGraph.Proofs.Comparison
import SignalGraph.Proofs.Convergence
import SignalGraph.Proofs.Coverage
import SignalGraph.Proofs.Cursors
import SignalGraph.Proofs.Duplicate
import SignalGraph.Proofs.EndedSubscriptions
import SignalGraph.Proofs.Eviction
import SignalGraph.Proofs.EvictionIndependence
import SignalGraph.Proofs.Expiry
import SignalGraph.Proofs.Exporting
import SignalGraph.Proofs.Filtering
import SignalGraph.Proofs.Glob
import SignalGraph.Proofs.GraphPools
import SignalGraph.Proofs.InstanceReports
import SignalGraph.Proofs.Interference
import SignalGraph.Proofs.LastChange
import SignalGraph.Proofs.LinkRemoval
import SignalGraph.Proofs.ListenerCalls
import SignalGraph.Proofs.Messages
import SignalGraph.Proofs.NewMaps
import SignalGraph.Proofs.PathNames
import SignalGraph.Proofs.Polling
import SignalGraph.Proofs.Realignment
import SignalGraph.Proofs.Reference
import SignalGraph.Proofs.Refusal
import SignalGraph.Proofs.RelationQueries
import SignalGraph.Proofs.RenewingSubscriptions
import SignalGraph.Proofs.Replica
import SignalGraph.Proofs.ReportedKinds
import SignalGraph.Proofs.Requests
import SignalGraph.Proofs.Reservation
import SignalGraph.Proofs.Restoration
import SignalGraph.Proofs.Sampling
import SignalGraph.Proofs.SetAlgebra
import SignalGraph.Proofs.Shifts
import SignalGraph.Proofs.SubscriptionChanges
import SignalGraph.Proofs.TotalOrder
import SignalGraph.Proofs.UnheardDeltas
import SignalGraph.Query.Cursor
import SignalGraph.Value.Display
