import Psych.Http.ConditionalFetch
import Psych.Http.DateHeader
import Psych.Http.PanicThreshold
import Psych.Http.RoundTrip
import Psych.Lifecycle.Curl
import Psych.Lifecycle.Instruments
import Psych.Lifecycle.OneStream
import Psych.Lifecycle.Preconditions
import Psych.Lifecycle.Reuse
import Psych.Lifecycle.Undo
import Psych.Load.ConfigText
import Psych.Load.PsychNodes
import Psych.Logging.Verbosity
import Psych.Publish.Cells
import Psych.Publish.CloseTime
import Psych.Publish.FieldMap
import Psych.Publish.Mantissa
import Psych.Publish.Permission
import Psych.Publish.Redundancy
import Psych.Query.Backoff
import Psych.Query.BodyLimit
import Psych.Query.Carousel
import Psych.Query.Incomplete
import Psych.Query.Isolation
import Psych.Query.Published
import Psych.Query.Retries
import Psych.Rfa.ConfigDatabase
import Psych.Rfa.EventCounters
import Psych.Rfa.HalfMade
import Psych.Rfa.LoginGate
import Psych.Rfa.Negotiation
import Psych.Rfa.RegistryPath
import Psych.Rfa.TokenRuns
import Psych.Snmp.Agent
import Psych.Snmp.InstanceList
import Psych.Snmp.SessionReport
import Psych.Snmp.SessionWalk
import Psych.Timer.Accounting
import Psych.Timer.EasyHandles
import Psych.Timer.Interval
import Psych.Timer.Republish
import Psych.Timer.Schedule
import Psych.Timer.Served
import Psych.Timer.ServiceTimes
import Psych.Timer.Survival
import Psych.Timer.Versions
