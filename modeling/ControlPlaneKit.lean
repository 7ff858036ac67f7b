import ControlPlaneKit.Interaction.Program
import ControlPlaneKit.Interaction.Logic
import ControlPlaneKit.Interaction.Pool
import ControlPlaneKit.Interaction.Section
import ControlPlaneKit.Interaction.Alone
import ControlPlaneKit.Interaction.Course
import ControlPlaneKit.Python.Json
import ControlPlaneKit.Gateway.Verification
import ControlPlaneKit.Gateway.Binding
import ControlPlaneKit.Gateway.ReplayCache
import ControlPlaneKit.Python.Encode
import ControlPlaneKit.Client.Trace
import ControlPlaneKit.Client.Validity
import ControlPlaneKit.Client.Documents
import ControlPlaneKit.Client.HostedAcceptance
import ControlPlaneKit.Client.Workflow
import ControlPlaneKit.Client.System
import ControlPlaneKit.Client.Protocol
import ControlPlaneKit.Client.Lawful
import ControlPlaneKit.Client.Abides
import ControlPlaneKit.Client.Commands
import ControlPlaneKit.Client.Reads
import ControlPlaneKit.Client.Preparation
import ControlPlaneKit.Client.Evidence
import ControlPlaneKit.Client.StatusRun
import ControlPlaneKit.Client.StatusReport
import ControlPlaneKit.Client.ApplyTerms
import ControlPlaneKit.Client.ApplyRun
import ControlPlaneKit.Client.ApplyCommands
import ControlPlaneKit.Client.Discipline
import ControlPlaneKit.Client.Healthy
import ControlPlaneKit.Python.Dumps
import ControlPlaneKit.Python.Sha256
import ControlPlaneKit.Client.HealthyRun
import ControlPlaneKit.Client.Guarantees
import ControlPlaneKit.Client.HealthyStatus
import ControlPlaneKit.Client.Reapply
import ControlPlaneKit.Client.Endings
import ControlPlaneKit.Client.Recording
import ControlPlaneKit.Client.Budget
import ControlPlaneKit.Client.Display
import ControlPlaneKit.Client.Resume
import ControlPlaneKit.Client.Verdict
import ControlPlaneKit.Python.Sorted
import ControlPlaneKit.Python.Urlencode
import ControlPlaneKit.Relay.Multiplexer
import ControlPlaneKit.Server.Boundary
import ControlPlaneKit.Client.Reading
import ControlPlaneKit.Client.MemberOrder
import ControlPlaneKit.Client.Publication
import ControlPlaneKit.Client.Publishing
import ControlPlaneKit.Client.Leftover
import ControlPlaneKit.Client.Readers
import ControlPlaneKit.Client.Atomicity
import ControlPlaneKit.Client.Transport
import ControlPlaneKit.Catalogue.Generated
import ControlPlaneKit.Catalogue.Pins
import ControlPlaneKit.Catalogue.Publication
import ControlPlaneKit.Catalogue.Check
import ControlPlaneKit.Catalogue.Descriptors
import ControlPlaneKit.Catalogue.Consistency
import ControlPlaneKit.Server.Surfaces
import ControlPlaneKit.Server.Services
import ControlPlaneKit.Relay.Router
import ControlPlaneKit.Server.Credentials
import ControlPlaneKit.Server.Query
import ControlPlaneKit.Server.Template
import ControlPlaneKit.SourceLive.Abort
import ControlPlaneKit.Python.Codes
import ControlPlaneKit.Python.Urlsplit
import ControlPlaneKit.Gateway.Target
import ControlPlaneKit.Gateway.Probe
import ControlPlaneKit.Server.Bootstrap
import ControlPlaneKit.SourceLive.Convergence
import ControlPlaneKit.SourceLive.Permitted
import ControlPlaneKit.SourceLive.Preparation
import ControlPlaneKit.SourceLive.StopsAtDoubt
import ControlPlaneKit.Client.PlanBound
import ControlPlaneKit.Client.MovedWorkspace
import ControlPlaneKit.Server.Percent
import ControlPlaneKit.Server.Bodies
import ControlPlaneKit.Python.Worklist
import ControlPlaneKit.Server.Nesting
import ControlPlaneKit.Client.Pages
import ControlPlaneKit.SourceLive.Phases
import ControlPlaneKit.Python.Same
import ControlPlaneKit.SourceLive.Connector
import ControlPlaneKit.Hello.Readiness
import ControlPlaneKit.Client.StatusTruth
import ControlPlaneKit.Python.Syntax
import ControlPlaneKit.TestSupport.PackageIntegrity
import ControlPlaneKit.TestSupport.Skips
import ControlPlaneKit.Python.Loads
import ControlPlaneKit.Python.ReadBack
import ControlPlaneKit.Catalogue.Canonical
import ControlPlaneKit.Client.StartedWork
import ControlPlaneKit.Client.Accessors
import ControlPlaneKit.Client.Contained
import ControlPlaneKit.Interaction.Remainder
import ControlPlaneKit.Client.Foresight
import ControlPlaneKit.Client.Redelivery
import ControlPlaneKit.Client.FailedStep
import ControlPlaneKit.Client.LostResponse
import ControlPlaneKit.Python.Hooks
import ControlPlaneKit.Python.Compact
import ControlPlaneKit.Python.Surrogates
import ControlPlaneKit.Client.Cursor
import ControlPlaneKit.Client.StoredJournal
import ControlPlaneKit.Client.ReadBack
import ControlPlaneKit.Python.Holes
import ControlPlaneKit.Server.Contract
import ControlPlaneKit.Client.Request
import ControlPlaneKit.Client.Delivery
