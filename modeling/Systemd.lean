import Systemd.Basic.HashmapForeach
import Systemd.Basic.WordRuns
import Systemd.Config.BlockDevices
import Systemd.Config.EnvironmentFiles
import Systemd.Config.Honoured
import Systemd.Config.Includes
import Systemd.Config.Timespans
import Systemd.Devices.Properties
import Systemd.Devices.SharedLists
import Systemd.Engine.ClearJobs
import Systemd.Engine.Closure
import Systemd.Engine.Collected
import Systemd.Engine.Ends
import Systemd.Engine.FailedApply
import Systemd.Engine.Order
import Systemd.Engine.PullClosure
import Systemd.Engine.Rejected
import Systemd.Engine.Returned
import Systemd.Engine.Unneeded
import Systemd.Groups.Killing
import Systemd.Groups.Specs
import Systemd.Install.Fixpoint
import Systemd.Loading.AnyOrder
import Systemd.Loading.Specifiers
import Systemd.Logins.DeviceAccess
import Systemd.Logins.SeatRecord
import Systemd.Logins.SessionRecord
import Systemd.Logins.UserRecord
import Systemd.Mounts.Remembered
import Systemd.Mounts.Survived
import Systemd.Readahead.Packs
import Systemd.Services.CommandLine
import Systemd.Services.EnvironmentMerge
import Systemd.Services.Holdoff
import Systemd.Services.NotifySocket
import Systemd.Services.RateLimits
import Systemd.Services.SetupNamespace
import Systemd.Services.ShiftedFds
import Systemd.Services.Watched
import Systemd.Sockets.Connections
import Systemd.Sockets.Restored
import Systemd.Streams.Framing
import Systemd.Streams.Rejected
import Systemd.Tmpfiles.CleanedUp
import Systemd.Triggers.Afresh
import Systemd.Triggers.Heard
import Systemd.Triggers.Rearm
import Systemd.Units.Collect
import Systemd.Units.GroupOwners
import Systemd.Units.Instances
import Systemd.Units.ManagerStream
import Systemd.Units.ObjectPath
import Systemd.Units.SelfDependency
