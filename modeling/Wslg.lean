import Wslg.Lib.Prog
import Wslg.Lib.Bytes
import Wslg.Lib.Cursor
import Wslg.Lib.Outcome
import Wslg.Lib.KeyedSet
import Wslg.Lib.Effects
import Wslg.Lib.History
import Wslg.Lib.Path
import Wslg.Lib.System
import Wslg.Lib.Window
import Wslg.Lib.DirTree
import Wslg.Lib.Watches
import Wslg.Lib.Mirror
import Wslg.Lib.MirrorSteps
import Wslg.Lib.Sweep
import Wslg.Lib.Argv
import Wslg.Lib.Environ
import Wslg.Lib.Balance
import Wslg.Lib.Pipe
import Wslg.Protocol
import Wslg.Server
import Wslg.Reader
import Wslg.Os
import Wslg.Utils
import Wslg.FileDB
import Wslg.Callback
import Wslg.Wire
import Wslg.Decode
import Wslg.Handlers
import Wslg.RoundTrip
import Wslg.Run
import Wslg.Ledger
import Wslg.Frame
import Wslg.Scan
import Wslg.Update
import Wslg.Refine
import Wslg.Sync
import Wslg.Survive
import Wslg.Confine
import Wslg.Registry
import Wslg.Files
import Wslg.Disk
import Wslg.Robust
import Wslg.Prefix
import Wslg.Framing
import Wslg.Batching
import Wslg.Limits
import Wslg.ProviderName
import Wslg.Handshake
import Wslg.Provider
import Wslg.Follow
import Wslg.Closing
import Wslg.Lengths
import Wslg.Rejected
import Wslg.Links
import Wslg.LatestCaps
import Wslg.CommandLine
import Wslg.BeforeHandshake
import Wslg.Keys
import Wslg.Database
import Wslg.FolderTree
import Wslg.TreeDisk
import Wslg.CleanUp
import Wslg.RemoveProvider
import Wslg.Receive
import Wslg.Advance
import Wslg.Channel
import Wslg.ProcessMonitor
import Wslg.Supervise
import Wslg.Restarts
import Wslg.FontMonitor
import Wslg.Folders
import Wslg.FontPath
import Wslg.Descriptors
import Wslg.FontOperations
import Wslg.FontRules
import Wslg.FontLedger
import Wslg.FontTrees
import Wslg.FontStart
import Wslg.Rehash
import Wslg.IconFile
import Wslg.OpenClose
import Wslg.IconBuffers
import Wslg.Replies
import Wslg.WakeUps
import Wslg.Lib.Shell
import Wslg.TranslatePath
import Wslg.Vsock
import Wslg.WestonEnv
import Wslg.Session
import Wslg.TaskBar
import Wslg.Lib.Credentials
import Wslg.Privileges
import Wslg.Startup
import Wslg.StartOrder
import Wslg.StartEnv
import Wslg.Children
import Wslg.Reaping
import Wslg.EventBuffer
import Wslg.Handles
import Wslg.Menu
