import SpiceAgent.Daemon.SessionWaiters
import SpiceAgent.Daemon.LedgerContract
import SpiceAgent.RunAuthority.Sticky
import SpiceAgent.Daemon.PendingOnce
import SpiceAgent.GrpcServer.ReplayRecovery
import SpiceAgent.GrpcServer.EventPages
import SpiceAgent.GrpcServer.InteractionPages
import SpiceAgent.PluginHost.Bound
import SpiceAgent.PluginHost.Release
import SpiceAgent.Stage.SingleDispatch
import SpiceAgent.Plugin.Carried
import SpiceAgent.Agent.RunIdentity
import SpiceAgent.Agent.SuspensionKept
import SpiceAgent.PluginHost.RemoteOutcome
import SpiceAgent.Client.ManagedShutdown
import SpiceAgent.Client.GrpcReconnect
import SpiceAgent.Client.ManagedVerdict
import SpiceAgent.Daemon.EndpointTruth
import SpiceAgent.Plugin.HandshakeInjective
import SpiceAgent.PluginHost.SessionDrain
import SpiceAgent.GitWorkflow.Authority
