import NestAmqp.Proxy.ErrorRoundTrip
import NestAmqp.Proxy.Responses
import NestAmqp.Proxy.RouteOrder
import NestAmqp.Proxy.AuthProviderRegistry
import NestAmqp.Proxy.CommandOrder
import NestAmqp.Proxy.ScopeIsolation
import NestAmqp.Broker.Bindings
import NestAmqp.Broker.HandlerLiveness
import NestAmqp.Broker.RequestData
import NestAmqp.Broker.RpcAnswers
import NestAmqp.Amqp.WaitQueue
import NestAmqp.Amqp.Drain
import NestAmqp.Amqp.SubscriptionOutcome
import NestAmqp.Amqp.Correlation
import NestAmqp.Acl.Confinement
import NestAmqp.Acl.OneInstance
import NestAmqp.Acl.AnswerHistory
import NestAmqp.Acl.Integrity
import NestAmqp.Acl.ResourceListing
import NestAmqp.Gateway.Convergence
import NestAmqp.Gateway.UserEdits
import NestAmqp.Gateway.Ownership
import NestAmqp.Gateway.RouteIntegrity
import NestAmqp.Gateway.InsertRace
import NestAmqp.Gateway.ReloadBroadcast
import NestAmqp.Gateway.MalformedEntries
import NestAmqp.Gateway.PathPrecedence
import NestAmqp.Gateway.DiffPartition
import NestAmqp.Gateway.FieldDiff
import NestAmqp.Gateway.MetricViews
import NestAmqp.Amqp.TopicMatching
import NestAmqp.Broker.PublishMessage
import NestAmqp.Broker.SharedHeaders
import NestAmqp.Proxy.ConcurrencyCap
import NestAmqp.Acl.CacheBounds
import NestAmqp.Broker.AuthPairing
import NestAmqp.Gateway.Prometheus
import NestAmqp.Gateway.FlattenObject
import NestAmqp.Gateway.MetricsRollup
import NestAmqp.Proxy.KeyClients
import NestAmqp.Proxy.BasicAuth
import NestAmqp.Broker.DrainableStream
import NestAmqp.Broker.ParamNames
import NestAmqp.Gateway.CanonicalText
import NestAmqp.Store.HttpPathRepository
import NestAmqp.Store.HttpMetricRepository
import NestAmqp.Gateway.SchedulerLock
import NestAmqp.Gateway.RollupPeers
import NestAmqp.Gateway.PublishedRoutes
import NestAmqp.Broker.Topology
import NestAmqp.Gateway.MetricsService
