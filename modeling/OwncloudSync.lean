import OwncloudSync.Auth.Expiry
import OwncloudSync.Auth.RefreshOnce
import OwncloudSync.Auth.TokenManager
import OwncloudSync.Auth.WebFinger
import OwncloudSync.Client.Tus
import OwncloudSync.Client.UploadMetadata
import OwncloudSync.Daemon.Accounts
import OwncloudSync.Daemon.Announcements
import OwncloudSync.Daemon.AppConfig
import OwncloudSync.Daemon.CallbackRequest
import OwncloudSync.Daemon.Coherence
import OwncloudSync.Daemon.ConfigSave
import OwncloudSync.Daemon.EventPairs
import OwncloudSync.Daemon.GuiAgreement
import OwncloudSync.Daemon.GuiConnection
import OwncloudSync.Daemon.GuiStatus
import OwncloudSync.Daemon.GuiUpdate
import OwncloudSync.Daemon.GuiView
import OwncloudSync.Daemon.GuiWizard
import OwncloudSync.Daemon.LocalChanges
import OwncloudSync.Daemon.MainLoop
import OwncloudSync.Daemon.OidcCallback
import OwncloudSync.Daemon.OrphanSync
import OwncloudSync.Daemon.Pending
import OwncloudSync.Daemon.Process
import OwncloudSync.Daemon.Protocol
import OwncloudSync.Daemon.QueryParams
import OwncloudSync.Daemon.Restart
import OwncloudSync.Daemon.Scheduler
import OwncloudSync.Daemon.SessionSteps
import OwncloudSync.Daemon.SignIn
import OwncloudSync.Daemon.SingleFlight
import OwncloudSync.Daemon.SingleInstance
import OwncloudSync.Daemon.SpacePoller
import OwncloudSync.Daemon.SpaceRemoval
import OwncloudSync.Daemon.Subscription
import OwncloudSync.Daemon.SyncRoots
import OwncloudSync.Daemon.WebdavRoot
import OwncloudSync.Discovery.AllOrNothing
import OwncloudSync.Discovery.Containment
import OwncloudSync.Discovery.Encoding
import OwncloudSync.Discovery.EntityTags
import OwncloudSync.Discovery.Exactness
import OwncloudSync.Discovery.FailedPropstats
import OwncloudSync.Discovery.FieldSources
import OwncloudSync.Discovery.HonestListing
import OwncloudSync.Discovery.HrefSpelling
import OwncloudSync.Discovery.LocalWalk
import OwncloudSync.Discovery.Propfind
import OwncloudSync.Discovery.PropfindResponse
import OwncloudSync.Discovery.RemoteUrl
import OwncloudSync.Discovery.RemoteWalk
import OwncloudSync.Discovery.Truncation
import OwncloudSync.Discovery.WholeText
import OwncloudSync.Engine.Calls
import OwncloudSync.Engine.ConflictCopies
import OwncloudSync.Engine.ConflictPaths
import OwncloudSync.Engine.Convergence
import OwncloudSync.Engine.Credentials
import OwncloudSync.Engine.Deletion
import OwncloudSync.Engine.Detection
import OwncloudSync.Engine.DirectoryPhase
import OwncloudSync.Engine.DownloadAtomic
import OwncloudSync.Engine.Env
import OwncloudSync.Engine.Faults
import OwncloudSync.Engine.JournalHygiene
import OwncloudSync.Engine.LostUpdate
import OwncloudSync.Engine.MergeConflicts
import OwncloudSync.Engine.MergePlan
import OwncloudSync.Engine.MergeProgress
import OwncloudSync.Engine.MergeResume
import OwncloudSync.Engine.MergeRun
import OwncloudSync.Engine.Names
import OwncloudSync.Engine.OpEffects
import OwncloudSync.Engine.Outcome
import OwncloudSync.Engine.ParallelDownload
import OwncloudSync.Engine.ParentCollections
import OwncloudSync.Engine.Plan
import OwncloudSync.Engine.Progress
import OwncloudSync.Engine.Propagate
import OwncloudSync.Engine.Quiescence
import OwncloudSync.Engine.Reconcile
import OwncloudSync.Engine.ReportTotals
import OwncloudSync.Engine.Requests
import OwncloudSync.Engine.Retry
import OwncloudSync.Engine.RunEffects
import OwncloudSync.Engine.RunSync
import OwncloudSync.Engine.SharedSpace
import OwncloudSync.Engine.StatusHygiene
import OwncloudSync.Engine.Statuses
import OwncloudSync.Engine.TaskEffects
import OwncloudSync.Engine.Tidy
import OwncloudSync.Engine.TusLocation
import OwncloudSync.Engine.TypeAgreement
import OwncloudSync.Engine.Types
import OwncloudSync.Lib.Base64
import OwncloudSync.Lib.Chunks
import OwncloudSync.Lib.FileName
import OwncloudSync.Lib.Framing
import OwncloudSync.Lib.InodeFs
import OwncloudSync.Lib.Keyed
import OwncloudSync.Lib.LexicalPath
import OwncloudSync.Lib.NormalPath
import OwncloudSync.Lib.PairOrder
import OwncloudSync.Lib.PathTree
import OwncloudSync.Lib.PublicSuffix
import OwncloudSync.Lib.Runs
import OwncloudSync.Lib.TaskRun
import OwncloudSync.Lib.Text
import OwncloudSync.Lib.ThreeWay
import OwncloudSync.Lib.UriReference
import OwncloudSync.Shell.BroadcastOrder
import OwncloudSync.Shell.BroadcastSender
import OwncloudSync.Shell.FinderClient
import OwncloudSync.Shell.FolderStatus
import OwncloudSync.Shell.LineExtraction
import OwncloudSync.Shell.LongestRoot
import OwncloudSync.Shell.Overlay
import OwncloudSync.Shell.Protocol
import OwncloudSync.Shell.RoundTrips
import OwncloudSync.Shell.Server
import OwncloudSync.Shell.SocketClient
import OwncloudSync.Shell.V2
