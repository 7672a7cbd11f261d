import ThreescaleTests.Library.Dict
import ThreescaleTests.Library.Exn
import ThreescaleTests.Library.Matching
import ThreescaleTests.Library.Splits
import ThreescaleTests.Library.Pattern
import ThreescaleTests.Library.JsonFrame
import ThreescaleTests.Library.Sorting
import ThreescaleTests.Library.Windows
import ThreescaleTests.Library.Clock
import ThreescaleTests.Library.Grep
import ThreescaleTests.Library.Pasting
import ThreescaleTests.Library.Retry
import ThreescaleTests.Library.Xml
import ThreescaleTests.Library.Counting
import ThreescaleTests.Library.Simulation
import ThreescaleTests.Library.Memo
import ThreescaleTests.Library.Objects
import ThreescaleTests.Library.Renaming
import ThreescaleTests.Toolbox.FindAndCmp
import ThreescaleTests.Toolbox.CmpServices
import ThreescaleTests.Toolbox.FaithfulCopy
import ThreescaleTests.Toolbox.PairCheck
import ThreescaleTests.Toolbox.ExtraChildren
import ThreescaleTests.Toolbox.Mappings
import ThreescaleTests.Toolbox.Proxies
import ThreescaleTests.Capabilities.Registry
import ThreescaleTests.Wasm.Extension
import ThreescaleTests.Wasm.Credentials
import ThreescaleTests.Wasm.MappingRules
import ThreescaleTests.Wasm.EndStates
import ThreescaleTests.Wasm.Gateways
import ThreescaleTests.Wasm.Leftovers
import ThreescaleTests.Factories.Fixtures
import ThreescaleTests.Factories.Course
import ThreescaleTests.Factories.Settings
import ThreescaleTests.Factories.HookComposition
import ThreescaleTests.Factories.Ledger
import ThreescaleTests.Factories.Cleanup
import ThreescaleTests.Httpx.ClientAuth
import ThreescaleTests.Httpx.OnlyAdds
import ThreescaleTests.Httpx.Client
import ThreescaleTests.Httpx.Sessions
import ThreescaleTests.Httpx.Concurrent
import ThreescaleTests.Openshift.Env
import ThreescaleTests.Openshift.Listing
import ThreescaleTests.Openshift.Cluster
import ThreescaleTests.Openshift.Writes
import ThreescaleTests.Openshift.Cache
import ThreescaleTests.Openshift.Scaler
import ThreescaleTests.Openshift.TenantRoutes
import ThreescaleTests.Openshift.Paths
import ThreescaleTests.Openshift.ScaleWait
import ThreescaleTests.Certificates.TmpFiles
import ThreescaleTests.Certificates.Manager
import ThreescaleTests.Selection.Sandbag
import ThreescaleTests.Selection.Collection
import ThreescaleTests.Selection.WarnAndSkip
import ThreescaleTests.Gateways.ServiceMesh
import ThreescaleTests.Gateways.Restore
import ThreescaleTests.Gateways.OperatorEnviron
import ThreescaleTests.Gateways.Replay
import ThreescaleTests.Gateways.Routes
import ThreescaleTests.Gateways.RoutesKept
import ThreescaleTests.Gateways.Deployed
import ThreescaleTests.Gateways.DeployedRoutes
import ThreescaleTests.Gateways.Leftovers
import ThreescaleTests.Gateways.SameGateway
import ThreescaleTests.Gateways.Priority
import ThreescaleTests.Gateways.ZyncLess
import ThreescaleTests.Ui.Navigator
import ThreescaleTests.Ui.NeededSteps
import ThreescaleTests.Ui.Failures
import ThreescaleTests.Ui.CheckBoxes
import ThreescaleTests.Ui.Screenshot
import ThreescaleTests.Echo.EchoedRequest
import ThreescaleTests.Echo.SameHeaders
import ThreescaleTests.Echo.SameParams
import ThreescaleTests.Mail.Chunks
import ThreescaleTests.Mail.Arrivals
import ThreescaleTests.Mail.Cleanup
import ThreescaleTests.Webhooks.Clients
import ThreescaleTests.Webhooks.Agreement
import ThreescaleTests.Waiting.NextMinute
import ThreescaleTests.Waiting.NextScrape
import ThreescaleTests.Releases.DockerTags
import ThreescaleTests.Resilient.AccountsCreate
import ThreescaleTests.Configuration.SettingsParser
import ThreescaleTests.Configuration.Construction
import ThreescaleTests.Configuration.Tools
import ThreescaleTests.Reports.Polish
import ThreescaleTests.Reports.WorkItems
import ThreescaleTests.Releases.NextRelease
