import BootNamespace.Dispatch.Echo
import BootNamespace.Dispatch.Script
import BootNamespace.Image.Description
import BootNamespace.Image.Spec
import BootNamespace.Inspect.Server
import BootNamespace.Json.Decode
import BootNamespace.Json.Forms
import BootNamespace.Json.Printer
import BootNamespace.Main
import BootNamespace.Proofs.Bytes
import BootNamespace.Proofs.SessionMap
import BootNamespace.Proofs.Namespace.Slots
import BootNamespace.Proofs.Namespace.Dirs
import BootNamespace.Proofs.Namespace.Files
import BootNamespace.Proofs.Namespace.Reachable
import BootNamespace.Proofs.Bootstrap
import BootNamespace.Proofs.Namespace.Found
import BootNamespace.Proofs.Namespace.Intact
import BootNamespace.Proofs.Connection
import BootNamespace.Proofs.Connection.Coupling
import BootNamespace.Proofs.Headers
import BootNamespace.Proofs.Service.References
import BootNamespace.Proofs.Service.Consistency
import BootNamespace.Proofs.Service.Atomic
import BootNamespace.Proofs.Service.Coverage
import BootNamespace.Proofs.Service.Calls
import BootNamespace.Proofs.Image.Format
import BootNamespace.Proofs.Image.Traced
import BootNamespace.Proofs.Image.Declared
import BootNamespace.Proofs.Image.Parse
import BootNamespace.Proofs.Image.Lifecycle
import BootNamespace.Proofs.Image.Layout
import BootNamespace.Proofs.Image.RoundTrip
import BootNamespace.Proofs.Service.Cursors
import BootNamespace.Proofs.Service.Counts
import BootNamespace.Proofs.Service.Frame
import BootNamespace.Proofs.Service.Holding
import BootNamespace.Proofs.Service.Independence
import BootNamespace.Proofs.Service.Visit
import BootNamespace.Proofs.Service.Protocol
import BootNamespace.Proofs.Service.Limit
import BootNamespace.Proofs.Namespace.Addition
import BootNamespace.Proofs.Namespace.Naming
import BootNamespace.Proofs.Namespace.Creation
import BootNamespace.Proofs.Namespace.Handles
import BootNamespace.Proofs.Namespace.Paths
import BootNamespace.Proofs.Namespace.Resolution
import BootNamespace.Proofs.Namespace.Deletion
import BootNamespace.Proofs.Namespace.EmptyNames
import BootNamespace.Proofs.Namespace.Truncation
import BootNamespace.Proofs.Client.Link
import BootNamespace.Proofs.Client.Open
import BootNamespace.Proofs.Bootstrap.Copy
import BootNamespace.Proofs.Dispatch.Exchanges
import BootNamespace.Proofs.Local.Order
import BootNamespace.Proofs.Local.Routing
import BootNamespace.Proofs.Local.Attendance
import BootNamespace.Proofs.Listing
import BootNamespace.Proofs.Listing.Grammar
import BootNamespace.Proofs.Client.Listing
import BootNamespace.Proofs.Client.Reading
import BootNamespace.Proofs.Bootstrap.BootDir
import BootNamespace.Proofs.Bootstrap.Summaries
import BootNamespace.Proofs.Client.Simulation
import BootNamespace.Proofs.Client.Fetch
import BootNamespace.Proofs.Local.Server
import BootNamespace.Proofs.Demo
import BootNamespace.Proofs.Demo.Output
