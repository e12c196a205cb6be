import ObmcWebapp.Redfish.DumpEscaped
import ObmcWebapp.Library.Runs
import ObmcWebapp.Service.Session
import ObmcWebapp.Service.ConfigFile
import ObmcWebapp.Service.Persistence
import ObmcWebapp.Core
import ObmcWebapp.Service.Login
import ObmcWebapp.Service.Authorization
import ObmcWebapp.Service.Requests
import ObmcWebapp.Service.IdleTimeout
import ObmcWebapp.Service.Sharing
import ObmcWebapp.Service.Additions
import ObmcWebapp.Entity.DBusInstance
import ObmcWebapp.Entity.Watchers
import ObmcWebapp.Redfish.Dump
import ObmcWebapp.Redfish.Getters
import ObmcWebapp.Redfish.Resolver
import ObmcWebapp.Redfish.Router
import ObmcWebapp.Entity.Instances
import ObmcWebapp.Redfish.Resolution
import ObmcWebapp.Redfish.Parameters
import ObmcWebapp.Redfish.Segments
import ObmcWebapp.Graphql.Simulation
import ObmcWebapp.Graphql.Denotation
import ObmcWebapp.Graphql.Interleaving
import ObmcWebapp.Entity.FindObject
import ObmcWebapp.Entity.Formatters
import ObmcWebapp.Entity.Properties
import ObmcWebapp.Entity.Queries
import ObmcWebapp.Entity.Population
import ObmcWebapp.Service.RoundTrip
import ObmcWebapp.Entity.Criteria
import ObmcWebapp.Connect.ServiceNames
import ObmcWebapp.Service.FailedLogin
import ObmcWebapp.Graphql.Totality
import ObmcWebapp.Graphql.Selections
import ObmcWebapp.Graphql.Aliases
import ObmcWebapp.Graphql.Handler
import ObmcWebapp.Entity.RelatedInstances
import ObmcWebapp.Entity.Supplement
import ObmcWebapp.Redfish.Links
import ObmcWebapp.Entity.Observers
import ObmcWebapp.Entity.PopulationSteps
import ObmcWebapp.Entity.InterfaceMatch
import ObmcWebapp.Entity.FormatterChains
import ObmcWebapp.Entity.StatusRollup
import ObmcWebapp.Entity.DefaultFields
import ObmcWebapp.Entity.ListenPort
import ObmcWebapp.Entity.Histories
import ObmcWebapp.Entity.NetworkProtocol
import ObmcWebapp.Entity.SensorStatus
import ObmcWebapp.Entity.Certificates
import ObmcWebapp.Entity.PCIe
import ObmcWebapp.Entity.VirtualMedia
import ObmcWebapp.Entity.SlotHistories
import ObmcWebapp.Redfish.EscapedText
import ObmcWebapp.Library.Markup
import ObmcWebapp.Redfish.DumpInteger
import ObmcWebapp.Redfish.Page
import ObmcWebapp.Redfish.Collections
import ObmcWebapp.Redfish.Raising
import ObmcWebapp.Redfish.ErrorStatus
import ObmcWebapp.Entity.MemorySummary
import ObmcWebapp.Entity.PCIeFunctions
import ObmcWebapp.Library.StringLiterals
import ObmcWebapp.Redfish.StaticSegments
import ObmcWebapp.Service.Sweep
import ObmcWebapp.Entity.Callers
import ObmcWebapp.Entity.Merging
import ObmcWebapp.Entity.NetworkInterface
import ObmcWebapp.Library.Base64
import ObmcWebapp.Service.BasicCredentials
import ObmcWebapp.Entity.SegmentScan
import ObmcWebapp.Library.PercentEncoding
import ObmcWebapp.Redfish.EscapePasses
import ObmcWebapp.Service.Redirect
import ObmcWebapp.Connect.CallGuard
import ObmcWebapp.Library.Numerals
import ObmcWebapp.Library.HttpMessage
import ObmcWebapp.Library.Calendar
import ObmcWebapp.Http.Headers
import ObmcWebapp.Http.Date
import ObmcWebapp.Http.Output
import ObmcWebapp.Redfish.ResponseHead
import ObmcWebapp.Http.Pipeline
import ObmcWebapp.Redfish.Anchors
import ObmcWebapp.Redfish.Navigation
import ObmcWebapp.Entity.HostBoot
import ObmcWebapp.Entity.BootOverride
import ObmcWebapp.Entity.Mirror
import ObmcWebapp.Entity.HostPower
import ObmcWebapp.Entity.MirrorRuns
import ObmcWebapp.Entity.Firmware
import ObmcWebapp.Entity.ActiveVersions
