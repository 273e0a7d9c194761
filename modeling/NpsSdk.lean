import NpsSdk.CaServer.Serials
import NpsSdk.CaServer.Timestamps
import NpsSdk.Core.Cache
import NpsSdk.FrameCodecs
import NpsSdk.Ncp.SessionLimits
import NpsSdk.Ndp.AnnounceForms
import NpsSdk.Ndp.ClusterResolution
import NpsSdk.Ndp.Federation
import NpsSdk.Ndp.GraphFrame
import NpsSdk.Ndp.Liveness
import NpsSdk.Ndp.RegistryOrder
import NpsSdk.Ndp.TargetResolution
import NpsSdk.Nip.Acme.ClientFlow
import NpsSdk.Nip.Ca.AllowlistGlob
import NpsSdk.Nip.Ca.CanonicalInjectivity
import NpsSdk.Nip.Ca.EnrollmentGate
import NpsSdk.Nip.Ca.PendingQueue
import NpsSdk.Nip.Ca.SessionContainment
import NpsSdk.Nip.Ca.SqlRefinement
import NpsSdk.Nip.Ca.Uniqueness
import NpsSdk.Nip.FrameCodec
import NpsSdk.Nip.IssuedFrames
import NpsSdk.Nip.Reputation.Signing
import NpsSdk.Nip.RevocationSoundness
import NpsSdk.Nip.SignatureCoverage
import NpsSdk.Nip.X509.AttestationCodec
import NpsSdk.Nip.X509.ChainLaw
import NpsSdk.Nip.X509.DerTotality
import NpsSdk.Nop.AggregationOrder
import NpsSdk.Nop.Backoff
import NpsSdk.Nop.ConditionCalls
import NpsSdk.Nop.GraphAcceptance
import NpsSdk.Nop.Identifiers
import NpsSdk.Nop.NodeRetries
import NpsSdk.Nop.PortableProfile.ConditionAgreement
import NpsSdk.Nop.PortableProfile.Leases
import NpsSdk.Nop.PortableProfile.OrchestrationRun
import NpsSdk.Nop.PortableProfile.StableOrder
import NpsSdk.Nop.Saga
import NpsSdk.Nop.SchedulerSafety
import NpsSdk.Nop.StreamSequence
import NpsSdk.Nop.TerminalStates
import NpsSdk.Nwp.ActionCancellation
import NpsSdk.Nwp.BudgetConformance
import NpsSdk.Nwp.CallerScope
import NpsSdk.Nwp.ChildConfinement
import NpsSdk.Nwp.ClientStream
import NpsSdk.Nwp.ComplexRecursion
import NpsSdk.Nwp.ContextLifetimes
import NpsSdk.Nwp.CursorCodec
import NpsSdk.Nwp.CursorSafety
import NpsSdk.Nwp.EffectiveTimeout
import NpsSdk.Nwp.EventCodec
import NpsSdk.Nwp.FailoverEpochs
import NpsSdk.Nwp.FilterAgreement
import NpsSdk.Nwp.NativeServer
import NpsSdk.Nwp.OwnerIsolation
import NpsSdk.Nwp.ReputationPolicy
import NpsSdk.Nwp.ResultLimits
import NpsSdk.Nwp.StreamFraming
import NpsSdk.Nwp.StreamReservations
import NpsSdk.Nwp.TaskCancellation
import NpsSdk.Nwp.ToolRouting
