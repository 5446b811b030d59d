import VoxtralServer.Lib.System
import VoxtralServer.Lib.Table
import VoxtralServer.Lib.Fields
import VoxtralServer.Lib.Window
import VoxtralServer.Lib.Fifo
import VoxtralServer.Lib.Blocks
import VoxtralServer.Lib.Reference
import VoxtralServer.Lib.Sampler
import VoxtralServer.Lib.Multimap
import VoxtralServer.Lib.Rounding
import VoxtralServer.Lib.Bytes
import VoxtralServer.Lib.Riff
import VoxtralServer.Lib.Numeral
import VoxtralServer.Lib.Ownership
import VoxtralServer.Lib.Padded
import VoxtralServer.Lib.Quoted
import VoxtralServer.Base
import VoxtralServer.Json
import VoxtralServer.JsonText
import VoxtralServer.Config
import VoxtralServer.ConfigLayers
import VoxtralServer.Auth.Token
import VoxtralServer.Auth.ClientIp
import VoxtralServer.Auth.AuthRateLimiter
import VoxtralServer.Auth.RequestRateLimiter
import VoxtralServer.Auth.FailureIsolation
import VoxtralServer.Auth.RequestIsolation
import VoxtralServer.Auth.RequestRetry
import VoxtralServer.Auth.RequestLoad
import VoxtralServer.Pool.Job
import VoxtralServer.Pool.Life
import VoxtralServer.Pool.Machine
import VoxtralServer.Pool.Delivery
import VoxtralServer.Pool.Progress
import VoxtralServer.Pool.Order
import VoxtralServer.Pool.Deadline
import VoxtralServer.Pool.Drain
import VoxtralServer.Pool.Waiting
import VoxtralServer.Backend.Wav
import VoxtralServer.Backend.VoxtralBackend
import VoxtralServer.Backend.Engine
import VoxtralServer.Backend.Resources
import VoxtralServer.Backend.Audio
import VoxtralServer.Server.Http
import VoxtralServer.Server.Middleware
import VoxtralServer.Server.MiddlewareRace
import VoxtralServer.Server.RetryAfter
import VoxtralServer.Server.AdaptRequest
import VoxtralServer.Server.Validation
import VoxtralServer.Server.ContentType
import VoxtralServer.Server.InputLength
import VoxtralServer.Server.SpeechHandler
import VoxtralServer.Server.SpeechAdmission
import VoxtralServer.Server.EngineText
import VoxtralServer.Server.Response
import VoxtralServer.Server.RequestId
import VoxtralServer.Logger
import VoxtralServer.Server.Lifecycle
import VoxtralServer.Server.Routes
import VoxtralServer.Server.SpeechSystem
import VoxtralServer.Server.SpeechFrames
import VoxtralServer.Server.SpeechDelivery
import VoxtralServer.Server.SpeechOutcomes
import VoxtralServer.Server.SpeechMetrics
import VoxtralServer.Server.QueueGauge
import VoxtralServer.Server.RefusalCauses
import VoxtralServer.Server.RequestFaults
import VoxtralServer.Server.Service
import VoxtralServer.Server.KeySecrecy
import VoxtralServer.Server.ServiceLimits
import VoxtralServer.Server.ServiceTotals
import VoxtralServer.Server.HonestClients
import VoxtralServer.Server.TrustedProxies
import VoxtralServer.Server.ServedAudio
import VoxtralServer.Server.ServiceErrors
import VoxtralServer.Server.ServiceDeadlines
import VoxtralServer.Server.ServiceShutdown
import VoxtralServer.Startup
import VoxtralServer.Program
import VoxtralServer.Main
import VoxtralServer.Process
