import VirtueSensing.Api.Authenticate
import VirtueSensing.Api.CertificateRaces
import VirtueSensing.Api.ComponentKeys
import VirtueSensing.Api.ConfigurationLoader
import VirtueSensing.Api.LoadedConfigurations
import VirtueSensing.Api.ObserveController
import VirtueSensing.Api.Pruning
import VirtueSensing.Api.ValidationPlug
import VirtueSensing.Bridge.Recovery
import VirtueSensing.Driver.CommandBuffers
import VirtueSensing.Driver.NameComparison
import VirtueSensing.Driver.ProbeConfiguration
import VirtueSensing.Driver.ProcessList
import VirtueSensing.Driver.QueueOverflow
import VirtueSensing.Driver.RecordSizes
import VirtueSensing.Installer.Installation
import VirtueSensing.Installer.Installed
import VirtueSensing.Installer.KeyUse
import VirtueSensing.Installer.Plans
import VirtueSensing.Installer.Setup
import VirtueSensing.Jsmn.TextTokens
import VirtueSensing.Jsmn.Texts
import VirtueSensing.Kernel.ConnectionRuns
import VirtueSensing.Kernel.Connections
import VirtueSensing.Kernel.DiscoveryWrites
import VirtueSensing.Kernel.FileReading
import VirtueSensing.Kernel.FileTables
import VirtueSensing.Kernel.HandlerEffects
import VirtueSensing.Kernel.Lifetime
import VirtueSensing.Kernel.LockDiscipline
import VirtueSensing.Kernel.ModuleExit
import VirtueSensing.Kernel.NewlineEscapes
import VirtueSensing.Kernel.NonceEcho
import VirtueSensing.Kernel.ReplyCorrelation
import VirtueSensing.Kernel.RequestTexts
import VirtueSensing.Kernel.RunRecords
import VirtueSensing.Kernel.SensorLookup
import VirtueSensing.Kernel.StateReplySize
import VirtueSensing.Kernel.Teardown
import VirtueSensing.Kernel.TokenCopies
import VirtueSensing.Kernel.Worker
import VirtueSensing.Nfs.CallMatching
import VirtueSensing.Nfs.TrackedPaths
import VirtueSensing.Nfs.Unmounting
import VirtueSensing.Relay.Controller
import VirtueSensing.Relay.Polls
import VirtueSensing.Relay.Requests
import VirtueSensing.Relay.RoundTrip
import VirtueSensing.Relay.SensorList
import VirtueSensing.Sensors.Netstat
import VirtueSensing.Sensors.NetstatRecovery
import VirtueSensing.Shared.FilePlanFailures
import VirtueSensing.Shared.FilePlans
import VirtueSensing.Shared.FileTree
import VirtueSensing.Shared.JsonDumps
import VirtueSensing.WinVirtue.AddressText
import VirtueSensing.WinVirtue.CommandEncoding
import VirtueSensing.WinVirtue.EventPump
import VirtueSensing.WinVirtue.EventStrings
import VirtueSensing.WinVirtue.NtQuerySys
import VirtueSensing.WinVirtue.ProcessWalk
import VirtueSensing.WinVirtue.SensorTables
import VirtueSensing.Wrapper.BodyReading
import VirtueSensing.Wrapper.EnrolmentOwners
import VirtueSensing.Wrapper.EnrolmentRuns
import VirtueSensing.Wrapper.EnrolmentSteps
import VirtueSensing.Wrapper.FailedActuations
import VirtueSensing.Wrapper.LogDelivery
import VirtueSensing.Wrapper.RetryLoop
