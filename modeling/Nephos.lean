import Nephos.Library.Transaction
import Nephos.Library.Sha256
import Nephos.Library.Block
import Nephos.Library.Transition
import Nephos.Library.Program
import Nephos.Netip
import Nephos.Text
import Nephos.NetipParse
import Nephos.Model
import Nephos.Store.Schema
import Nephos.Store.Queries
import Nephos.Store.Operations
import Nephos.Service.Validate
import Nephos.Service.Idempotency
import Nephos.Service.Network
import Nephos.Service.Instances
import Nephos.Edits
import Nephos.Keys
import Nephos.Service.Addressing
import Nephos.Service.Ranges
import Nephos.Topology
import Nephos.Store.Spec
import Nephos.Consistency
import Nephos.Evolution
import Nephos.Lifecycle
import Nephos.EventLog
import Nephos.TextSpec
import Nephos.KeyedCreates
import Nephos.EventStream
import Nephos.Library.Cursor
import Nephos.Reconcile.World
import Nephos.Reconcile.Calls
import Nephos.Reconcile.Controllers
import Nephos.Reconcile.Daemon
import Nephos.Reconcile.Spec
import Nephos.Reconcile.Behaviour
import Nephos.Reconcile.Threads
import Nephos.Reconcile.Moves
import Nephos.Reconcile.Links
import Nephos.Reconcile.Containers
import Nephos.Reconcile.Namespaces
import Nephos.Reconcile.Observations
import Nephos.Reconcile.Drain
import Nephos.Library.Trace
import Nephos.Reconcile.Passes
import Nephos.Reconcile.Roots
import Nephos.Reads
import Nephos.Reconcile.Isolation
import Nephos.Constraints
import Nephos.Reconcile.Served
import Nephos.Reconcile.Lookups
import Nephos.Reconcile.Running
import Nephos.Network.Engine
import Nephos.Network.Reservations
import Nephos.Network.Gateways
import Nephos.Reconcile.Names
import Nephos.Library.Base64
import Nephos.Library.Keyset
import Nephos.Service.Pages
import Nephos.PageWalks
import Nephos.Reconcile.Sweeps
import Nephos.Library.Stream
import Nephos.Console.Exec
import Nephos.Console.ExitCode
import Nephos.Compute.Site
import Nephos.Console.Input
import Nephos.Console.Server
import Nephos.Library.Machine
import Nephos.Network.Ruleset
import Nephos.Network.Kernel
import Nephos.Network.SourceChecks
import Nephos.Network.Router
import Nephos.Network.Convergence
import Nephos.Network.Interfaces
import Nephos.Network.AntiSpoof
import Nephos.Network.FailClosed
import Nephos.Network.KernelNames
import Nephos.Network.Markers
import Nephos.Network.Membership
import Nephos.Reconcile.Queue
import Nephos.Reconcile.Wakeups
import Nephos.Appliance.Token
import Nephos.Appliance.Lifecycle
import Nephos.Appliance.Managed
