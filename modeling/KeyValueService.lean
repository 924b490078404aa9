import KeyValueService.Access.Tokens
import KeyValueService.Bytes.Hex
import KeyValueService.Bytes.Segments
import KeyValueService.Bytes.Sha256
import KeyValueService.Bytes.Utf8
import KeyValueService.Disk.Buffered
import KeyValueService.Disk.Error
import KeyValueService.Disk.FileSystem
import KeyValueService.Disk.Path
import KeyValueService.History.Basic
import KeyValueService.History.Ring
import KeyValueService.History.Slots
import KeyValueService.Host
import KeyValueService.Launch
import KeyValueService.Logger.Basic
import KeyValueService.Logger.Outlets
import KeyValueService.Logger.Shared
import KeyValueService.Main
import KeyValueService.Pipeline.Backlog
import KeyValueService.Pipeline.Basic
import KeyValueService.Pipeline.Draining
import KeyValueService.Pipeline.Surroundings
import KeyValueService.Record.Basic
import KeyValueService.Record.Level
import KeyValueService.Record.Producers
import KeyValueService.Record.Rendering
import KeyValueService.Record.Style
import KeyValueService.Request.Basic
import KeyValueService.Request.Reader
import KeyValueService.Request.Writer
import KeyValueService.Service.Address
import KeyValueService.Service.Basic
import KeyValueService.Service.Connection
import KeyValueService.Service.Response
import KeyValueService.Service.Server
import KeyValueService.Settings.Basic
import KeyValueService.Settings.Logging
import KeyValueService.Settings.Serving
import KeyValueService.Sink.Console
import KeyValueService.Sink.LogFile
import KeyValueService.Sink.LogSeries
import KeyValueService.Sink.Memory
import KeyValueService.Sink.Outcome
import KeyValueService.Sink.Stream
import KeyValueService.Store.Basic
import KeyValueService.Store.Field
import KeyValueService.Store.Image
import KeyValueService.Table
import KeyValueService.Text.Blank
import KeyValueService.Text.Hidden
import KeyValueService.Text.Lines
import KeyValueService.Text.Number
import KeyValueService.Text.Pieces
import KeyValueService.Text.Quoted
import KeyValueService.Time.Calendar
import KeyValueService.Time.Instant
import KeyValueService.Time.Moment
import KeyValueService.Proofs.PipelineMoves
import KeyValueService.Proofs.RecordConservation
import KeyValueService.Proofs.EntryLaws
import KeyValueService.Proofs.PathResolution
import KeyValueService.Proofs.DirectoryMaking
import KeyValueService.Proofs.NumberedFiles
import KeyValueService.Proofs.FileRotation
import KeyValueService.Proofs.GreedyPacking
import KeyValueService.Proofs.GuestIsolation
import KeyValueService.Proofs.ImageCodec
import KeyValueService.Proofs.PathAncestry
import KeyValueService.Proofs.SoundFiles
import KeyValueService.Proofs.SettledPaths
import KeyValueService.Proofs.DraftPaths
import KeyValueService.Proofs.FileReplacing
import KeyValueService.Proofs.ImageSaving
import KeyValueService.Proofs.StoreAgreement
import KeyValueService.Proofs.StreamSegments
import KeyValueService.Proofs.ServiceDeeds
import KeyValueService.Proofs.ConnectionStream
import KeyValueService.Proofs.RequestReading
import KeyValueService.Proofs.SharedMap
import KeyValueService.Proofs.UnbrokenTexts
import KeyValueService.Proofs.ResponseFraming
import KeyValueService.Proofs.SaveRefusals
import KeyValueService.Proofs.KeptRecords
import KeyValueService.Proofs.CarriedRecords
import KeyValueService.Proofs.AnswerFraming
import KeyValueService.Proofs.LongLines
import KeyValueService.Proofs.LatestItems
import KeyValueService.Proofs.HistoryContents
import KeyValueService.Proofs.FaultIsolation
import KeyValueService.Proofs.WorkerThread
import KeyValueService.Proofs.Lifecycle
import KeyValueService.Proofs.SubscriberFanout
import KeyValueService.Proofs.CanonicalLines
import KeyValueService.Proofs.QueryResults
import KeyValueService.Proofs.ShiftedNumbers
import KeyValueService.Proofs.ObstructedRotation
import KeyValueService.Proofs.AtomicChanges
import KeyValueService.Proofs.CalendarDays
import KeyValueService.Proofs.DateReckoning
import KeyValueService.Proofs.StampOrder
import KeyValueService.Proofs.JsonDecoding
import KeyValueService.Proofs.AccessSetup
import KeyValueService.Proofs.RingContents
import KeyValueService.Proofs.ImageReading
import KeyValueService.Proofs.SettingsGrammar
import KeyValueService.Proofs.CountedSizes
import KeyValueService.Proofs.RetainedNumbers
import KeyValueService.Proofs.TokenListing
import KeyValueService.Proofs.TokenLogin
import KeyValueService.Proofs.ExportedSessions
import KeyValueService.Proofs.ConsoleOutput
import KeyValueService.Proofs.RotationShift
import KeyValueService.Proofs.FieldCode
