import AribcapDb.Archive.Access
import AribcapDb.Archive.Components
import AribcapDb.Archive.Concurrent
import AribcapDb.Archive.Expiry
import AribcapDb.Archive.Garbage
import AribcapDb.Archive.MonthDirectories
import AribcapDb.Archive.Naming
import AribcapDb.Archive.Partition
import AribcapDb.Archive.Recorder
import AribcapDb.Archive.Store
import AribcapDb.Archive.Writers
import AribcapDb.Chronology
import AribcapDb.Clock
import AribcapDb.Crates
import AribcapDb.Foundation.Broadcast
import AribcapDb.Foundation.Duplicates
import AribcapDb.Foundation.FileTree
import AribcapDb.Foundation.FixedWidth
import AribcapDb.Foundation.Framing
import AribcapDb.Foundation.Greedy
import AribcapDb.Foundation.Normalization
import AribcapDb.Foundation.Paging
import AribcapDb.Foundation.PercentEncoding
import AribcapDb.Foundation.QueryLanguage
import AribcapDb.Foundation.Segmentation
import AribcapDb.Foundation.SharedOutput
import AribcapDb.Foundation.Sql
import AribcapDb.Foundation.Squeeze
import AribcapDb.Foundation.Table
import AribcapDb.Foundation.Traced
import AribcapDb.Foundation.Transition
import AribcapDb.Json
import AribcapDb.Maintenance.Drain
import AribcapDb.Maintenance.Indexer
import AribcapDb.Maintenance.Loop
import AribcapDb.Path
import AribcapDb.Query.CaptionPage
import AribcapDb.Query.CaptionWalk
import AribcapDb.Query.Discovery
import AribcapDb.Query.Download
import AribcapDb.Query.Expression
import AribcapDb.Query.FileSize
import AribcapDb.Query.General
import AribcapDb.Query.Grammar
import AribcapDb.Query.Grep
import AribcapDb.Query.OwnSearch
import AribcapDb.Query.OwnText
import AribcapDb.Query.PageCommits
import AribcapDb.Query.Request
import AribcapDb.Query.Retention
import AribcapDb.Query.Search
import AribcapDb.Query.Service
import AribcapDb.Query.TimeBounds
import AribcapDb.Render.Fit
import AribcapDb.Render.NormalLine
import AribcapDb.Search.Cleanup
import AribcapDb.Search.Collision
import AribcapDb.Search.Coverage
import AribcapDb.Search.Frame
import AribcapDb.Search.Growth
import AribcapDb.Search.Ingest
import AribcapDb.Search.Invariant
import AribcapDb.Search.Lock
import AribcapDb.Search.Mirror
import AribcapDb.Search.Pass
import AribcapDb.Search.Progress
import AribcapDb.Search.Rebuild
import AribcapDb.Search.Record
import AribcapDb.Search.RoundTrip
import AribcapDb.Search.Scan
import AribcapDb.Search.Schema
import AribcapDb.Search.Tables
import AribcapDb.Serve.Lifecycle
import AribcapDb.Serve.Listeners
import AribcapDb.Serve.Live
import AribcapDb.Serve.UnixSocket
import AribcapDb.Tail.Connections
import AribcapDb.Tail.Drive
import AribcapDb.Tail.LineBuffer
import AribcapDb.Tail.Output
import AribcapDb.Tail.Selection
import AribcapDb.Tail.Targets
import AribcapDb.Text
