import ItvpnAgent.Kit.Outcome
import ItvpnAgent.Kit.Machine
import ItvpnAgent.Kit.Text
import ItvpnAgent.Kit.Numerals
import ItvpnAgent.Kit.Paths
import ItvpnAgent.Kit.Base64
import ItvpnAgent.Kit.Inbox
import ItvpnAgent.Kit.Calendar
import ItvpnAgent.Kit.Cadence
import ItvpnAgent.Kit.SharedFile
import ItvpnAgent.Kit.CommandLine
import ItvpnAgent.Kit.FormEncoding
import ItvpnAgent.Kit.Walk
import ItvpnAgent.Kit.Feed
import ItvpnAgent.Kit.Framing
import ItvpnAgent.Constants
import ItvpnAgent.Tools
import ItvpnAgent.Tools.Processes
import ItvpnAgent.Parser
import ItvpnAgent.Parser.Values
import ItvpnAgent.Parser.Numbers
import ItvpnAgent.Parser.Accepted
import ItvpnAgent.Parser.ByteOrderMark
import ItvpnAgent.Client.Json
import ItvpnAgent.Client.LicenseExtractor
import ItvpnAgent.Client.Retry
import ItvpnAgent.Client.Replies
import ItvpnAgent.Client.ErrorReplies
import ItvpnAgent.License.Environment
import ItvpnAgent.License.LicenseChecker
import ItvpnAgent.License.ReplyRecord
import ItvpnAgent.License.LicenseDate
import ItvpnAgent.License.VerifyCommand
import ItvpnAgent.Tasks.TimerTask
import ItvpnAgent.Tasks.ProcessKillerTask
import ItvpnAgent.Tasks.Enforcement
import ItvpnAgent.Tasks.EventSinkTask
import ItvpnAgent.Tasks.GetLicenseTask
import ItvpnAgent.Tasks.LicensePolling
import ItvpnAgent.Tasks.ReloadRace
import ItvpnAgent.Tasks.KillDecision
import ItvpnAgent.Tasks.Renewal
import ItvpnAgent.Tasks.Months
import ItvpnAgent.Tasks.LicenseFile
import ItvpnAgent.Tasks.FailedSave
import ItvpnAgent.Tasks.Policy
import ItvpnAgent.NxService.FileHandler
import ItvpnAgent.NxService.Service
import ItvpnAgent.NxService.ConfigHandler
import ItvpnAgent.NxService.ConfigPath
import ItvpnAgent.NxService.ItvpnExecHandler
import ItvpnAgent.NxService.Agent
import ItvpnAgent.NxService.Survival
import ItvpnAgent.NxService.Settings
import ItvpnAgent.NxService.Deeds
import ItvpnAgent.NtService.ConfigChange
import ItvpnAgent.NtService.Watching
import ItvpnAgent.Server.Request
import ItvpnAgent.Server.Form
import ItvpnAgent.Server.RequestParser
import ItvpnAgent.Server.Connection
import ItvpnAgent.Server.RequestGrammar
import ItvpnAgent.Server.Reply
import ItvpnAgent.Server.RequestHandler
import ItvpnAgent.Server.Handlers
import ItvpnAgent.Server.Lifetimes
import ItvpnAgent.HttpServer.HandleRequest
import ItvpnAgent.HttpServer.Session
