import Nookobo.Semantics.Run
import Nookobo.Semantics.Alternation
import Nookobo.Semantics.Raster
import Nookobo.Semantics.Pane
import Nookobo.Semantics.RingBuffer
import Nookobo.Text.CString
import Nookobo.Text.Scan
import Nookobo.Text.Utf8
import Nookobo.ActiveApp
import Nookobo.Watcher.State
import Nookobo.Watcher.Loop
import Nookobo.Watcher.HomeView
import Nookobo.Watcher.Session
import Nookobo.Watcher.HomeStream
import Nookobo.Watcher.PageKeys
import Nookobo.Watcher.Gestures
import Nookobo.Watcher.HomeFlags
import Nookobo.Watcher.MediaCard
import Nookobo.Watcher.Overlay
import Nookobo.Koreader.Model
import Nookobo.Koreader.HomePress
import Nookobo.Plato.Model
import Nookobo.Plato.Touch
import Nookobo.Supervisor.Model
import Nookobo.Supervisor.Requests
import Nookobo.Webkey.Model
import Nookobo.Webkey.Injection
import Nookobo.Shim.FifoInput
import Nookobo.Shim.Timers
import Nookobo.Shim.TimerPool
import Nookobo.Shim.TimerRemoval
import Nookobo.Shim.Drawing
import Nookobo.Shim.Osk
import Nookobo.Shim.State
import Nookobo.Shim.Input
import Nookobo.Shim.Video
import Nookobo.Shim.Pointer
import Nookobo.Shim.OskBackup
import Nookobo.Shim.EventQueue
import Nookobo.Boot.Payload
import Nookobo.Audio.Model
import Nookobo.Audio.Skip
import Nookobo.Audio.Pause
import Nookobo.Switcher.Dialog
import Nookobo.Switcher.Model
import Nookobo.Switcher.Frozen
import Nookobo.Switcher.Screen
import Nookobo.Supervisor.Requesters
import Nookobo.Touch.Decoders
import Nookobo.Watcher.Handlers
import Nookobo.Watcher.PowerPresses
import Nookobo.Watcher.Deadlines
import Nookobo.Koreader.HomeHold
import Nookobo.Text.Encoding
import Nookobo.Shim.UrlEditing
import Nookobo.Text.Utf8Walk
import Nookobo.Shim.Utf8Loops
import Nookobo.Shim.Damage
import Nookobo.Text.Buffer
import Nookobo.Text.FormEncoding
import Nookobo.Webkey.UrlDecoding
import Nookobo.Shim.SearchQuery
import Nookobo.Shim.RemoteText
import Nookobo.Shim.Calls
import Nookobo.Shim.PageTyping
import Nookobo.Shim.KeyLabels
import Nookobo.Shim.UrlBuffer
import Nookobo.Semantics.Submission
import Nookobo.Switcher.Hits
import Nookobo.Switcher.Updates
import Nookobo.Text.Numerals
import Nookobo.Plato.Trace
import Nookobo.Text.Lines
import Nookobo.Text.Readers
import Nookobo.Audio.Report
import Nookobo.Text.Pattern
import Nookobo.Text.Words
import Nookobo.Boot.CommentOut
import Nookobo.Boot.Harmless
import Nookobo.Boot.InitRc
import Nookobo.Boot.Defused
import Nookobo.Boot.Sections
import Nookobo.Boot.Insertions
import Nookobo.Boot.Services
import Nookobo.Frontlight.Toggle
import Nookobo.Battery.Log
import Nookobo.Battery.Rate
import Nookobo.Text.Utf8Valid
import Nookobo.Mtp.Sanitize
import Nookobo.Mtp.Containers
import Nookobo.Mtp.Strings
import Nookobo.Mtp.Model
import Nookobo.Mtp.ObjectInfo
import Nookobo.Semantics.HashIndex
import Nookobo.Mtp.Handles
import Nookobo.Semantics.Registry
import Nookobo.Mtp.Catalogue
import Nookobo.Mtp.Sessions
import Nookobo.Mtp.Paths
import Nookobo.Mtp.Folders
import Nookobo.Semantics.BulkTransfer
import Nookobo.Mtp.Responses
import Nookobo.Mtp.ObjectHandles
import Nookobo.Mtp.FileData
import Nookobo.Semantics.SeekableFile
import Nookobo.Mtp.Storages
import Nookobo.Mtp.Responder
import Nookobo.Mtp.HostView
import Nookobo.Mtp.RootFolders
import Nookobo.Mtp.ObjectData
import Nookobo.Mtp.FolderEvents
