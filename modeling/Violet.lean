import Violet.Dart.Str
import Violet.Dart.Integer
import Violet.Sql.Lexer
import Violet.Sql.Parser
import Violet.Sql.Select
import Violet.Sql.Semantics
import Violet.Sql.Like
import Violet.Sql.Alternative
import Violet.Sql.Negation
import Violet.Search.Translate
import Violet.Search.Clauses
import Violet.Search.ClauseReading
import Violet.Search.Quoting
import Violet.Search.Layout
import Violet.Search.Query
import Violet.Search.UserPart
import Violet.Search.Filters
import Violet.Search.Paging
import Violet.Search.HentaiManager
import Violet.Search.Pages
import Violet.Search.Facets
import Violet.Search.Combined
import Violet.Search.OneCondition
import Violet.Transition.Run
import Violet.Transition.Interleaving
import Violet.Thread.Semaphore
import Violet.Thread.Callers
import Violet.Thread.Clients
import Violet.Search.SearchPage
import Violet.Network.Wrapper
import Violet.Network.Throttle
import Violet.Dart.Method
import Violet.Dart.Sort
import Violet.Dart.Text
import Violet.Dart.Split
import Violet.Dart.Lines
import Violet.Dart.Map
import Violet.Dart.FixedList
import Violet.Dart.Firsts
import Violet.Dart.Stretch
import Violet.Bookmark.Tables
import Violet.Bookmark.Operations
import Violet.Bookmark.FailedWrite
import Violet.Bookmark.Caches
import Violet.Bookmark.References
import Violet.Bookmark.Concurrent
import Violet.Bookmark.GroupOrder
import Violet.Bookmark.MoveChecked
import Violet.Bookmark.Covered
import Violet.Bookmark.MoveOrder
import Violet.Bookmark.Reorder
import Violet.Record.ReadLog
import Violet.Sync.SyncManager
import Violet.Sync.Attempts
import Violet.Sync.Chunks
import Violet.Sync.CleanUp
import Violet.Script.Lexer
import Violet.Script.ScriptLexer
import Violet.Script.Lexemes
import Violet.Grammar.Reads
import Violet.Grammar.ShiftReduce
import Violet.Grammar.Viable
import Violet.Script.ScriptModel
import Violet.Script.ScriptParser
import Violet.Script.ScriptGrammar
import Violet.Script.ScriptCache
import Violet.Script.Compilation
import Violet.Script.Printing
import Violet.Edit.Edits
import Violet.Edit.Move
import Violet.Edit.Alignment
import Violet.Algorithm.Distance
import Violet.Algorithm.Route
import Violet.Links.Connected
import Violet.Links.Acyclic
import Violet.Algorithm.DisjointSet
import Violet.Algorithm.TitleCluster
import Violet.Download.Downloadable
import Violet.Download.Directives
import Violet.Download.FilePath
import Violet.Download.Levels
import Violet.Download.Hitomi
import Violet.Download.ImageList
import Violet.Download.NativeDownloader
import Violet.Download.DownloadRoutine
import Violet.Download.Completion
import Violet.Download.Failure
import Violet.Cert.CertData
import Violet.Tags.Indexing
import Violet.Tags.Drift
import Violet.Tags.TagTranslate
import Violet.Tags.AutoComplete
import Violet.Tags.Aliases
import Violet.Search.Chip
import Violet.Tags.Completeness
import Violet.Tags.Symmetry
import Violet.Coding.Blocks
import Violet.Tags.Keys
import Violet.Tags.Similar
import Violet.Search.Highlight
import Violet.Search.SearchBar
import Violet.Search.Suggested
import Violet.Tags.Written
import Violet.Tags.MoreSuggested
import Violet.Program.Operation
import Violet.Program.Prog
import Violet.Script.RunVariable
import Violet.Script.ScriptBuiltIn
import Violet.Script.ScriptRunner
import Violet.Script.Operators
import Violet.Script.Demands
import Violet.Script.CallDemands
import Violet.Script.Exceptions
import Violet.Script.Runs
import Violet.Script.Region
import Violet.Script.Kept
import Violet.Script.Scopes
import Violet.Script.Flags
import Violet.Script.Loops
import Violet.Script.Elements
import Violet.Script.Tidy
import Violet.Script.Cycles
import Violet.Script.FromJson
import Violet.Script.Reading
import Violet.Script.Places
import Violet.Script.Unparsing
import Violet.Script.Names
import Violet.Script.Gathering
import Violet.Script.Lines
import Violet.Script.Comments
import Violet.Script.TokenLayout
import Violet.Script.Literals
import Violet.Settings.TagLists
import Violet.Transition.Log
import Violet.Transition.Orbit
import Violet.Transition.Files
import Violet.Transition.Table
import Violet.Wire.OnesComplement
import Violet.Wire.Bytes
import Violet.Wire.Memory
import Violet.Wire.Checksum
import Violet.Wire.Serial
import Violet.Tun2Http.Util
import Violet.Tun2Http.Tls
import Violet.Tun2Http.ClientHello
import Violet.Tun2Http.Http
import Violet.Tun2Http.TcpSession
import Violet.Tun2Http.TcpSteps
import Violet.Tun2Http.TcpRuns
import Violet.Tun2Http.TcpStates
import Violet.Tun2Http.TcpDownload
import Violet.Tun2Http.TcpUpload
import Violet.Tun2Http.TcpWindow
import Violet.Tun2Http.TcpQueue
import Violet.Tun2Http.Packets
import Violet.Tun2Http.Ip
import Violet.Tun2Http.ClientPacket
import Violet.Tun2Http.Dns
import Violet.Tun2Http.Udp
import Violet.Tun2Http.Icmp
import Violet.Tun2Http.Proxy
import Violet.Tun2Http.ProxyRuns
import Violet.Tun2Http.ProxyIdle
import Violet.Tun2Http.ProxyLimit
