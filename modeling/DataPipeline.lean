import DataPipeline.Library.Execution
import DataPipeline.Platform.CircuitBreaker
import DataPipeline.Platform.CircuitConcurrency
import DataPipeline.Library.Calendar
import DataPipeline.Library.Json
import DataPipeline.Ingestor.Schemas
import DataPipeline.Platform.Retry
import DataPipeline.Ingestor.BackgroundWorkers
import DataPipeline.Ingestor.Jobs
import DataPipeline.Ingestor.DefaultProcessor
import DataPipeline.Ingestor.Crud
import DataPipeline.Ingestor.Upsert
import DataPipeline.Ingestor.UpsertRace
import DataPipeline.Ingestor.Cache
import DataPipeline.Ingestor.Records
import DataPipeline.Ingestor.ReadThrough
import DataPipeline.Library.Base64
import DataPipeline.Ingestor.Cursor
import DataPipeline.Library.Keyset
import DataPipeline.Ingestor.Pagination
import DataPipeline.Processor.Consume
import DataPipeline.Platform.CircuitHalfOpen
import DataPipeline.Ingestor.WorkerPool
import DataPipeline.Ingestor.RateLimitingAdvanced
import DataPipeline.Ingestor.TokenBucket
import DataPipeline.Ingestor.SlidingWindow
import DataPipeline.Ingestor.RecordsV2
import DataPipeline.Ingestor.CacheRace
import DataPipeline.Ingestor.ClientIp
import DataPipeline.AiGateway.Filters
import DataPipeline.Ingestor.EventLifecycle
import DataPipeline.Ingestor.EventRace
import DataPipeline.Ingestor.AttemptCount
import DataPipeline.Library.Instant
import DataPipeline.Ingestor.Validation
import DataPipeline.Ingestor.Timestamps
import DataPipeline.Ingestor.StoreInvariant
import DataPipeline.Ingestor.Listing
import DataPipeline.Ingestor.Archived
import DataPipeline.Ingestor.Analytics
import DataPipeline.QueryApi.Analytics
import DataPipeline.Ingestor.PoolAccounts
import DataPipeline.Ingestor.PoolLifecycle
import DataPipeline.Ingestor.PoolConservation
import DataPipeline.Ingestor.PoolShutdown
import DataPipeline.Ingestor.ProcessingRace
import DataPipeline.Ingestor.ArchiveRace
import DataPipeline.Ingestor.ScheduledBatch
import DataPipeline.Dashboard.Pages
import DataPipeline.Ingestor.JobSessions
import DataPipeline.Ingestor.Scheduler
import DataPipeline.Library.Ranking
import DataPipeline.Ingestor.Ranking
import DataPipeline.QueryApi.Ranking
import DataPipeline.Ingestor.ClientCursors
import DataPipeline.Ingestor.WaitingTimes
import DataPipeline.Ingestor.RemainingQuota
import DataPipeline.Ingestor.ListingsAgree
import DataPipeline.Ingestor.UpdateRace
import DataPipeline.Ingestor.Sessions
import DataPipeline.Ingestor.BloomFilter
import DataPipeline.Ingestor.Scrapers
import DataPipeline.Library.Dotted
import DataPipeline.Library.Rose
import DataPipeline.Scripts.ServiceBoundaries
import DataPipeline.Ingestor.RawAnalytics
import DataPipeline.Platform.Backoff
import DataPipeline.Platform.Idempotency
import DataPipeline.Ingestor.JobHealth
import DataPipeline.Ingestor.DateRanges
import DataPipeline.Ingestor.BatchInsert
import DataPipeline.Library.Semaphore
import DataPipeline.Ingestor.Enrichment
import DataPipeline.Ingestor.LostQuotes
import DataPipeline.Library.Lines
import DataPipeline.Dashboard.Exposition
import DataPipeline.Dashboard.Metrics
import DataPipeline.Ingestor.HourlyBuckets
import DataPipeline.Ingestor.BitArray
import DataPipeline.Ingestor.JwtAuth
import DataPipeline.Library.Url
import DataPipeline.Library.Markup
import DataPipeline.Dashboard.Continuation
import DataPipeline.Library.JsonWriting
import DataPipeline.Ingestor.Publishing
import DataPipeline.Pipeline.RecordEvents
import DataPipeline.Pipeline.RecordDelivery
import DataPipeline.Ingestor.Roles
import DataPipeline.Ingestor.SecuredRecords
import DataPipeline.Library.Recent
import DataPipeline.AiGateway.Embeddings
import DataPipeline.AiGateway.Indexing
import DataPipeline.Pipeline.VectorIndexing
import DataPipeline.Ingestor.JwtRecords
import DataPipeline.Ingestor.ScrapeStorage
import DataPipeline.Ingestor.Notifications
import DataPipeline.Ingestor.TaskAlerts
import DataPipeline.Ingestor.Fetch
import DataPipeline.Ingestor.BatchStorage
import DataPipeline.Library.Numbers
import DataPipeline.Platform.RetryLoop
