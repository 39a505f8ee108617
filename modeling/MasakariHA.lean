import MasakariHA.Api.Controllers
import MasakariHA.Api.RequestVersion
import MasakariHA.Api.Resource
import MasakariHA.Api.Urlmap
import MasakariHA.Api.VersionString
import MasakariHA.Api.Versions
import MasakariHA.Cmd.Manage
import MasakariHA.Db.Listings
import MasakariHA.Db.SortParams
import MasakariHA.Engine.Manager
import MasakariHA.Engine.PeriodicTask
import MasakariHA.Engine.ReservedHosts
import MasakariHA.Engine.Taskflow.AfterEvacuation
import MasakariHA.Engine.Taskflow.InstanceFailure
import MasakariHA.Engine.Taskflow.ProcessFailure
import MasakariHA.Engine.UnfinishedNotifications
import MasakariHA.Ha.Constraints
import MasakariHA.Ha.CreateNotification
import MasakariHA.Ha.ForgetColumns
import MasakariHA.Ha.Links
import MasakariHA.Ha.Retention
import MasakariHA.Monitors.CheckGuests
import MasakariHA.Monitors.GuestPings
import MasakariHA.Monitors.HostmonitorSh.MainLoop
import MasakariHA.Monitors.HostmonitorSh.MakeNoticeData
import MasakariHA.Monitors.HostmonitorSh.Rounds
import MasakariHA.Monitors.InstanceMonitor
import MasakariHA.Monitors.IsPoweroff
import MasakariHA.Monitors.MonitorHosts
import MasakariHA.Monitors.ProcessMonitor
import MasakariHA.Monitors.ProcessmonitorSh
import MasakariHA.Monitors.ProcessmonitorSh.MainLoop
import MasakariHA.Monitors.ProcessmonitorSh.ProcList
import MasakariHA.Monitors.QemuUtils
import MasakariHA.Monitors.SendNotification
