import RadarFeed.Cache
import RadarFeed.Channel
import RadarFeed.CommandLine
import RadarFeed.Decimal.Binary
import RadarFeed.Decimal.Fixed
import RadarFeed.Decimal.Literal
import RadarFeed.Decode.Bytes
import RadarFeed.Decode.Error
import RadarFeed.Decode.File
import RadarFeed.Decode.Guarded
import RadarFeed.Feed.Basic
import RadarFeed.Feed.Loading
import RadarFeed.Feed.Move
import RadarFeed.Feed.Task
import RadarFeed.File.Index
import RadarFeed.File.Path
import RadarFeed.File.Tree
import RadarFeed.Geodesy.Direct
import RadarFeed.Geodesy.Grid
import RadarFeed.Json.Field
import RadarFeed.Json.Text
import RadarFeed.Json.Token
import RadarFeed.Json.Value
import RadarFeed.Keyed
import RadarFeed.Level3.Heading
import RadarFeed.Level3.Message
import RadarFeed.Level3.Product
import RadarFeed.Log
import RadarFeed.Main
import RadarFeed.Main.Body
import RadarFeed.Main.Message
import RadarFeed.Manager
import RadarFeed.Ordered
import RadarFeed.Product.Category
import RadarFeed.Product.Group
import RadarFeed.Program
import RadarFeed.Proofs.Cache.Answers
import RadarFeed.Proofs.Cache.Lookup
import RadarFeed.Proofs.Cache.Seconds
import RadarFeed.Proofs.Decode.Fields
import RadarFeed.Proofs.Decode.Guarded
import RadarFeed.Proofs.Decode.Times
import RadarFeed.Proofs.Feed.Answers
import RadarFeed.Proofs.Feed.Categories
import RadarFeed.Proofs.Feed.Completions
import RadarFeed.Proofs.Feed.Courses
import RadarFeed.Proofs.Feed.Creation
import RadarFeed.Proofs.Feed.Ended
import RadarFeed.Proofs.Feed.Failures
import RadarFeed.Proofs.Feed.Files
import RadarFeed.Proofs.Feed.FirstRecord
import RadarFeed.Proofs.Feed.LoadedFiles
import RadarFeed.Proofs.Feed.Locks
import RadarFeed.Proofs.Feed.Machines
import RadarFeed.Proofs.Feed.Managers
import RadarFeed.Proofs.Feed.Objects
import RadarFeed.Proofs.Feed.Quiet
import RadarFeed.Proofs.Feed.Registry
import RadarFeed.Proofs.Feed.Routing
import RadarFeed.Proofs.Feed.Serials
import RadarFeed.Proofs.Feed.Shared
import RadarFeed.Proofs.Feed.Sites
import RadarFeed.Proofs.Feed.Sound
import RadarFeed.Proofs.Feed.Tasks
import RadarFeed.Proofs.Feed.Toggles
import RadarFeed.Proofs.File.Route
import RadarFeed.Proofs.File.Tree
import RadarFeed.Proofs.Geodesy.Grid
import RadarFeed.Proofs.Json.Number
import RadarFeed.Proofs.Json.Text
import RadarFeed.Proofs.Json.Token
import RadarFeed.Proofs.Json.Value
import RadarFeed.Proofs.Keys
import RadarFeed.Proofs.Level3.Layout
import RadarFeed.Proofs.Level3.LetterCase
import RadarFeed.Proofs.Level3.Lines
import RadarFeed.Proofs.Level3.Radar
import RadarFeed.Proofs.Manager.Change
import RadarFeed.Proofs.Manager.Volumes
import RadarFeed.Proofs.Product.Category
import RadarFeed.Proofs.Refresh.Outcome
import RadarFeed.Proofs.Refresh.Overlap
import RadarFeed.Proofs.Refresh.Polling
import RadarFeed.Proofs.Refresh.Silence
import RadarFeed.Proofs.Refresh.Timers
import RadarFeed.Proofs.Request.History
import RadarFeed.Proofs.Settings
import RadarFeed.Proofs.Site.Latest
import RadarFeed.Proofs.Site.Suffix
import RadarFeed.Proofs.Site.Table
import RadarFeed.Proofs.Source.Listing
import RadarFeed.Proofs.Source.Names
import RadarFeed.Proofs.Source.Order
import RadarFeed.Proofs.Source.Products
import RadarFeed.Proofs.Source.Root
import RadarFeed.Proofs.Source.Stamps
import RadarFeed.Proofs.Text.Ascii
import RadarFeed.Proofs.Text.Digits
import RadarFeed.Proofs.Text.Pieces
import RadarFeed.Proofs.Text.Utf8
import RadarFeed.Proofs.Time.Calendar
import RadarFeed.Proofs.Time.RadarDay
import RadarFeed.Proofs.Time.Truncation
import RadarFeed.Proofs.Volume.AsOf
import RadarFeed.Proofs.Volume.Cuts
import RadarFeed.Proofs.Volume.Elevations
import RadarFeed.Proofs.Volume.Header
import RadarFeed.Proofs.Volume.Nearest
import RadarFeed.Proofs.Volume.Selection
import RadarFeed.Record
import RadarFeed.Refresh.Interval
import RadarFeed.Refresh.Machine
import RadarFeed.Rehearsal.Basic
import RadarFeed.Rehearsal.Sources
import RadarFeed.Request
import RadarFeed.Settings
import RadarFeed.Site.Builtin
import RadarFeed.Site.File
import RadarFeed.Site.Table
import RadarFeed.Source.Directory
import RadarFeed.Source.Error
import RadarFeed.Source.Memory
import RadarFeed.Text.Ascii
import RadarFeed.Text.Blank
import RadarFeed.Text.Digits
import RadarFeed.Text.Quoted
import RadarFeed.Text.Unprintable
import RadarFeed.Text.Utf8
import RadarFeed.Time.Civil
import RadarFeed.Time.Instant
import RadarFeed.Time.RadarDay
import RadarFeed.Time.Stamp
import RadarFeed.Timeline
import RadarFeed.Volume.Cut
import RadarFeed.Volume.Decode
import RadarFeed.Volume.Header
import RadarFeed.Volume.Scan
import RadarFeed.Volume.Sweep
