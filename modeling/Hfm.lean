import Hfm.Support.Glob
import Hfm.Monitors.FnmatchCut
import Hfm.Support.NodeHeap
import Hfm.Trapmngr
import Hfm.Policy
import Hfm.Support.Run
import Hfm.Vmhdlr
import Hfm.Inject
import Hfm.ShadowPages
import Hfm.Events
import Hfm.Int3Loop
import Hfm.Int3Serves
import Hfm.TrapRuns
import Hfm.GuestWrites
import Hfm.InjectFailure
import Hfm.ViewSwitch
import Hfm.ReturnTraps
import Hfm.Attribution
import Hfm.Monitors.AddPolicy
import Hfm.Monitors.Activation
import Hfm.Monitors.SetPolicies
import Hfm.Monitors.Thresholds
import Hfm.Monitors.Restarts
import Hfm.Monitors.Rehook
import Hfm.Watcher.Multiwatch
import Hfm.Watcher.Answers
import Hfm.Watcher.RestartProtocol
import Hfm.Watcher.Abandoned
import Hfm.Fcleaner.Hashtable
import Hfm.Outputs.Format
import Hfm.Support.Text
import Hfm.Outputs.Csv
import Hfm.Support.Json
import Hfm.Outputs.Es
import Hfm.PolicyFile
import Hfm.Support.Handles
import Hfm.Watcher.Lifecycle
import Hfm.Watcher.HandleRuns
import Hfm.Context
import Hfm.Support.Radix
import Hfm.Win
import Hfm.HandleTable
import Hfm.Monitors.Callbacks
import Hfm.Monitors.Reports
import Hfm.Monitors.Invocations
import Hfm.Monitors.Justified
import Hfm.Monitors.StringBuffer
import Hfm.Monitors.ObjectPath
import Hfm.Monitors.PassedPath
import Hfm.Monitors.CreateCall
import Hfm.Monitors.Translate
import Hfm.Monitors.FilterRuns
import Hfm.Support.Scan
import Hfm.Monitors.Wildcards
import Hfm.Monitors.Subtree
import Hfm.PolicyPieces
import Hfm.Support.Utf16
import Hfm.Monitors.FileName
import Hfm.Monitors.GuestStrings
import Hfm.Sid
import Hfm.Monitors.SecurityText
import Hfm.Monitors.GroupText
import Hfm.Support.ByteFile
import Hfm.Support.Walk
import Hfm.Extract
import Hfm.ExtractedPages
import Hfm.Drives
import Hfm.GuestWalks
import Hfm.Rekall
import Hfm.Monitors.Lookups
import Hfm.Monitors.Divisors
import Hfm.MemoryGrowth
import Hfm.Watcher.Boot
import Hfm.Log
import Hfm.LogEntries
import Hfm.Config
import Hfm.Support.Stream
import Hfm.Fcleaner.Fileutil
import Hfm.Support.Lines
import Hfm.Fcleaner.Filewatch
import Hfm.Outputs.Escape
import Hfm.Fcleaner.HashtableMap
import Hfm.Monitors.Tokens
import Hfm.Monitors.MatchSteps
import Hfm.Support.Simulation
import Hfm.HookRuns
import Hfm.Footprint
import Hfm.Transparency
import Hfm.Close
import Hfm.ReturnRecords
import Hfm.Fcleaner.HashtableLife
import Hfm.DrivesListed
import Hfm.Support.Follows
import Hfm.Lockstep
import Hfm.Monitors.FirstPolicy
import Hfm.Support.GlobShape
import Hfm.Monitors.PlainPatterns
import Hfm.Support.Budget
import Hfm.Watcher.Recovery
import Hfm.Watcher.Threads
import Hfm.Watcher.Exit
import Hfm.Watcher.Shutdown
import Hfm.Profile
import Hfm.Monitors.Lifetime
