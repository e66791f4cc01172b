import ScatterGather.Main
import ScatterGather.Call.Report
import ScatterGather.JsonForm
import ScatterGather.Proofs.Access.Accounting
import ScatterGather.Proofs.Access.InTurn
import ScatterGather.Proofs.Access.Recording
import ScatterGather.Proofs.Access.Adding
import ScatterGather.Proofs.Access.Ordering
import ScatterGather.Proofs.Access.Refinement
import ScatterGather.Proofs.Access.Reporting
import ScatterGather.Proofs.Backend.Calls
import ScatterGather.Proofs.Cluster.Frame
import ScatterGather.Proofs.Cluster.Natives
import ScatterGather.Proofs.Cluster.Transactions
import ScatterGather.Proofs.Cluster.Completion
import ScatterGather.Proofs.Cluster.Steady
import ScatterGather.Proofs.Session.Guarded
import ScatterGather.Proofs.Session.Run
import ScatterGather.Proofs.Session.Opening
import ScatterGather.Proofs.Session.Renewal
import ScatterGather.Proofs.Session.Enlistment
import ScatterGather.Proofs.Session.Hookless
import ScatterGather.Proofs.Session.Outcome
import ScatterGather.Proofs.Factory
import ScatterGather.Proofs.VirtualMap.Codecs
import ScatterGather.Proofs.VirtualMap.Grammar
import ScatterGather.Proofs.Session.Retry
import ScatterGather.Proofs.Session.Attempts
import ScatterGather.Proofs.Session.Moves
import ScatterGather.Proofs.Session.Chains
import ScatterGather.Proofs.Session.LateAttach
import ScatterGather.Proofs.Session.Reopening
import ScatterGather.Proofs.Session.Leaks
import ScatterGather.Proofs.Session.Members
import ScatterGather.Proofs.Access.Tracing
import ScatterGather.Proofs.Access.Pacing
import ScatterGather.Proofs.Handle.Sharing
import ScatterGather.Proofs.Handle.Alone
import ScatterGather.Proofs.Handle.Ownership
import ScatterGather.Proofs.Handle.Queue
import ScatterGather.Proofs.Cluster.Notices
import ScatterGather.Proofs.Cluster.Alike
import ScatterGather.Proofs.Session.Undisturbed
import ScatterGather.Proofs.Session.Calls
import ScatterGather.Proofs.Session.Synchronizations
import ScatterGather.Proofs.Session.Succession
import ScatterGather.Proofs.Session.Routing
import ScatterGather.Proofs.Access.Feeding
import ScatterGather.Proofs.Exit.First
import ScatterGather.Proofs.Exit.Aggregate
import ScatterGather.Proofs.Exit.Concatenate
import ScatterGather.Proofs.Cluster.Timeouts
import ScatterGather.Proofs.Session.Timekeeping
import ScatterGather.Proofs.Session.Timeouts
import ScatterGather.Proofs.Cluster.Faultless
import ScatterGather.Proofs.Session.Healthy
import ScatterGather.Proofs.Demo.Items
import ScatterGather.Proofs.Demo.Calls
import ScatterGather.Proofs.Demo.Conservation
import ScatterGather.Proofs.Cluster.Faults
import ScatterGather.Proofs.Cluster.Turns
import ScatterGather.Proofs.Session.Compensation
import ScatterGather.Proofs.Session.FailedBegins
import ScatterGather.Proofs.Session.Rollbacks
import ScatterGather.Proofs.Collect.ExactNumbers
import ScatterGather.Proofs.Collect.Arranging
import ScatterGather.Proofs.Binary.Rounding
import ScatterGather.Proofs.Collect.IntegerKeys
import ScatterGather.Proofs.Exit.Sums
import ScatterGather.Proofs.Exit.Extremes
import ScatterGather.Proofs.Text.Cutting
import ScatterGather.Proofs.Text.Decimal
import ScatterGather.Proofs.Json.Objects
import ScatterGather.Proofs.Binary.Nearest
import ScatterGather.Proofs.Binary.Arithmetic
import ScatterGather.Proofs.Binary.Averaging
import ScatterGather.Proofs.Binary.Precision
import ScatterGather.Proofs.Exit.Averages
import ScatterGather.Proofs.Access.RoundRobin
import ScatterGather.Proofs.Access.Visits
import ScatterGather.Proofs.Backend.Run
import ScatterGather.Proofs.Backend.Views
import ScatterGather.Proofs.Backend.Isolation
import ScatterGather.Proofs.Backend.Transactions
import ScatterGather.Proofs.Backend.Counters
import ScatterGather.Proofs.Session.Served
