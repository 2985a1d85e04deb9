import FepControl.Tokenizer
import FepControl.Quoting
import FepControl.Json
import FepControl.JsonText
import FepControl.Lib.Eff
import FepControl.Response
import FepControl.Fep3
import FepControl.Session
import FepControl.Lookup
import FepControl.Contract
import FepControl.Commands.System
import FepControl.Commands.Settings
import FepControl.Commands.Participant
import FepControl.Commands.Property
import FepControl.Commands.Rpc
import FepControl.Commands.Table
import FepControl.Dispatch
import FepControl.Invoke
import FepControl.Responses
import FepControl.Failures
import FepControl.Lib.Run
import FepControl.Runs
import FepControl.RegistryKeys
import FepControl.MonitoringRuns
import FepControl.Framing
import FepControl.Sink
import FepControl.Server
import FepControl.Completion
import FepControl.Lib.Made
import FepControl.Footprint
import FepControl.Addressing
import FepControl.Intact
import FepControl.Rediscovery
import FepControl.Shutdown
import FepControl.Scanner
import FepControl.Words
import FepControl.Escapes
import FepControl.PropertyTree
import FepControl.Lib.SlashPath
import FepControl.Traversal
import FepControl.Visits
import FepControl.Renderings
import FepControl.Local
import FepControl.Clients
import FepControl.PropertyStore
import FepControl.UsedProperties
import FepControl.Tool
import FepControl.TokenCompletion
import FepControl.ParticipantCompletion
import FepControl.JsonArguments
import FepControl.Lib.Decimal
import FepControl.Priorities
import FepControl.Lib.MaximalRun
import FepControl.Unquoting
import FepControl.Lib.CMemory
import FepControl.Lib.Zipper
import FepControl.Lib.BoundedLog
import FepControl.Lib.Chunks
import FepControl.Lib.EscapeCode
import FepControl.Linenoise.Keyboard
import FepControl.Linenoise.Buffer
import FepControl.Linenoise.Display
import FepControl.Linenoise.History
import FepControl.Linenoise.Completion
import FepControl.Linenoise.Search
import FepControl.Linenoise.Editor
import FepControl.Linenoise.Draft
import FepControl.Linenoise.Sound
import FepControl.Linenoise.Desk
import FepControl.Linenoise.Seek
import FepControl.Linenoise.Offer
import FepControl.Linenoise.Rounds
import FepControl.Linenoise.Play
import FepControl.Linenoise.Typing
import FepControl.Linenoise.Letters
import FepControl.Linenoise.Overrun
import FepControl.Linenoise.Console
import FepControl.Linenoise.Screen
import FepControl.Linenoise.Walk
import FepControl.Linenoise.Recall
import FepControl.Linenoise.HistoryFile
import FepControl.Linenoise.Pipe
import FepControl.Linenoise.Edits
import FepControl.Linenoise.Tab
